import Mathlib.Data.Set.Insert
import Mathlib.Logic.Relation
import NuvioEngine.Lib.Queue

/-!
An abstract account of resume files: an owner that adds, saves and removes torrents, and a session that
carries out its commands in order, posts notices in order, and answers a save at any later time. Each
torrent has a name, under which its file is kept. A name is unwanted from the removal by the user until
a torrent of the name is asked for again. No answer to a save may bring back the file of an unwanted
name.
-/

namespace NuvioEngine.Backend

inductive Command (τ : Type*) where
  | add (torrent : τ)
  | remove (torrent : τ)
  | save (torrent : τ)
  deriving DecidableEq

inductive Notice (τ : Type*) where
  | added (torrent : τ)
  | refused
  | removed (torrent : τ)
  deriving DecidableEq

variable {τ ν : Type*}

/-- Whether a command removes a torrent of a name. -/
def Command.removes [DecidableEq ν] (name : τ → ν) (wanted : ν) : Command τ → Bool
  | .remove torrent => name torrent = wanted
  | .add _ | .save _ => false

/-- Whether a notice tells that a torrent of a name is removed. -/
def Notice.removes [DecidableEq ν] (name : τ → ν) (wanted : ν) : Notice τ → Bool
  | .removed torrent => name torrent = wanted
  | .added _ | .refused => false

/-- `live` torrents are in the session, `made` ones were, and the handles of `expired` ones point to
nothing. `saving` holds the torrents whose save was carried out and is not answered. The rest is the
owner's: the torrents it asked for, the handle it has for a name, and its marks. -/
structure Protocol (τ ν : Type*) where
  commands : List (Command τ)
  notices : List (Notice τ)
  live : Set τ
  made : Set τ
  expired : Set τ
  saving : List τ
  requested : Set τ
  handles : ν → Option τ
  explicitlyRemoved : Set τ
  pendingResumeSaves : Set τ
  pendingCacheUnloads : Set ν
  pendingCacheRemovals : Set ν
  pendingRemovals : Set ν
  unwanted : Set ν

namespace Protocol

variable [DecidableEq τ] [DecidableEq ν] (name : τ → ν)

/-- The steps of the owner, then those of the session. -/
inductive Step : Protocol τ ν → Protocol τ ν → Prop
  | request (state : Protocol τ ν) (torrent : τ) (fresh : torrent ∉ state.requested)
      (free : ∀ other, state.handles (name torrent) = some other → other ∈ state.expired) :
      Step state { state with
        requested := insert torrent state.requested
        explicitlyRemoved := state.explicitlyRemoved \ {torrent}
        unwanted := state.unwanted \ {name torrent}
        commands := state.commands ++ [.add torrent] }
  | save (state : Protocol τ ν) (torrent : τ) (made : torrent ∈ state.made)
      (kept : torrent ∉ state.explicitlyRemoved) (idle : torrent ∉ state.pendingResumeSaves) :
      Step state { state with
        pendingResumeSaves := insert torrent state.pendingResumeSaves
        commands := state.commands ++ [.save torrent] }
  | choose (state : Protocol τ ν) (torrent : τ) (known : state.handles (name torrent) = some torrent)
      (valid : torrent ∉ state.expired) (uncached : name torrent ∉ state.pendingCacheRemovals)
      (unremoved : name torrent ∉ state.pendingRemovals) :
      Step state { state with
        pendingCacheUnloads := insert (name torrent) state.pendingCacheUnloads }
  | withdraw (state : Protocol τ ν) (wanted : ν) :
      Step state { state with pendingCacheUnloads := state.pendingCacheUnloads \ {wanted} }
  | unload (state : Protocol τ ν) (torrent : τ) (made : torrent ∈ state.made)
      (chosen : name torrent ∈ state.pendingCacheUnloads)
      (saved : torrent ∈ state.live → torrent ∉ state.pendingResumeSaves) :
      Step state { state with
        pendingCacheUnloads := state.pendingCacheUnloads \ {name torrent}
        pendingCacheRemovals := insert (name torrent) state.pendingCacheRemovals
        commands := state.commands ++ [.remove torrent] }
  | mark (state : Protocol τ ν) (torrent : τ) :
      Step state { state with explicitlyRemoved := insert torrent state.explicitlyRemoved }
  | unmark (state : Protocol τ ν) (torrent : τ) (gone : torrent ∈ state.expired) :
      Step state { state with explicitlyRemoved := state.explicitlyRemoved \ {torrent} }
  | remove (state : Protocol τ ν) (torrent : τ) (known : state.handles (name torrent) = some torrent)
      (valid : torrent ∉ state.expired) (uncached : name torrent ∉ state.pendingCacheRemovals)
      (unremoved : name torrent ∉ state.pendingRemovals)
      (marked : torrent ∈ state.live → torrent ∈ state.explicitlyRemoved) :
      Step state { state with
        pendingCacheUnloads := state.pendingCacheUnloads \ {name torrent}
        pendingCacheRemovals := state.pendingCacheRemovals \ {name torrent}
        pendingRemovals := insert (name torrent) state.pendingRemovals
        unwanted := insert (name torrent) state.unwanted
        commands := state.commands ++ [.remove torrent] }
  | overtake (state : Protocol τ ν) (torrent : τ) (known : state.handles (name torrent) = some torrent)
      (valid : torrent ∉ state.expired) (cached : name torrent ∈ state.pendingCacheRemovals)
      (marked : torrent ∈ state.live → torrent ∈ state.explicitlyRemoved) :
      Step state { state with
        pendingCacheUnloads := state.pendingCacheUnloads \ {name torrent}
        pendingCacheRemovals := state.pendingCacheRemovals \ {name torrent}
        pendingRemovals := insert (name torrent) state.pendingRemovals
        unwanted := insert (name torrent) state.unwanted }
  | forget (state : Protocol τ ν) (torrent : τ)
      (settled : torrent ∈ state.live → torrent ∈ state.explicitlyRemoved) :
      Step state { state with pendingResumeSaves := state.pendingResumeSaves \ {torrent} }
  | learn (state : Protocol τ ν) (torrent : τ) (rest : List (Notice τ))
      (next : state.notices = .added torrent :: rest) (valid : torrent ∉ state.expired) :
      Step state { state with
        notices := rest
        handles := Function.update state.handles (name torrent) (some torrent) }
  | miss (state : Protocol τ ν) (torrent : τ) (rest : List (Notice τ))
      (next : state.notices = .added torrent :: rest) (gone : torrent ∈ state.expired) :
      Step state { state with notices := rest }
  | lament (state : Protocol τ ν) (rest : List (Notice τ)) (next : state.notices = .refused :: rest) :
      Step state { state with notices := rest }
  | release (state : Protocol τ ν) (torrent : τ) (rest : List (Notice τ))
      (next : state.notices = .removed torrent :: rest) :
      Step state { state with
        notices := rest
        handles := Function.update state.handles (name torrent) none
        pendingCacheUnloads := state.pendingCacheUnloads \ {name torrent}
        pendingCacheRemovals := state.pendingCacheRemovals \ {name torrent}
        pendingRemovals := state.pendingRemovals \ {name torrent} }
  | answer (state : Protocol τ ν) (torrent : τ) (asked : torrent ∈ state.saving) :
      Step state { state with
        saving := state.saving.erase torrent
        pendingResumeSaves := state.pendingResumeSaves \ {torrent} }
  | echo (state : Protocol τ ν) (torrent : τ) (out : torrent ∉ state.live) :
      Step state { state with saving := state.saving.erase torrent }
  | make (state : Protocol τ ν) (torrent : τ) (rest : List (Command τ))
      (next : state.commands = .add torrent :: rest)
      (single : ∀ other ∈ state.live, name other ≠ name torrent) :
      Step state { state with
        commands := rest
        live := insert torrent state.live
        made := insert torrent state.made
        notices := state.notices ++ [.added torrent] }
  | duplicate (state : Protocol τ ν) (torrent present : τ) (rest : List (Command τ))
      (next : state.commands = .add torrent :: rest) (there : present ∈ state.live)
      (same : name present = name torrent) :
      Step state { state with commands := rest, notices := state.notices ++ [.added present] }
  | refuse (state : Protocol τ ν) (torrent : τ) (rest : List (Command τ))
      (next : state.commands = .add torrent :: rest) :
      Step state { state with commands := rest, notices := state.notices ++ [.refused] }
  | takeOut (state : Protocol τ ν) (torrent : τ) (rest : List (Command τ))
      (next : state.commands = .remove torrent :: rest) (there : torrent ∈ state.live) :
      Step state { state with
        commands := rest
        live := state.live \ {torrent}
        notices := state.notices ++ [.removed torrent] }
  | retell (state : Protocol τ ν) (torrent : τ) (rest : List (Command τ))
      (next : state.commands = .remove torrent :: rest) (out : torrent ∉ state.live) :
      Step state { state with commands := rest, notices := state.notices ++ [.removed torrent] }
  | ignore (state : Protocol τ ν) (torrent : τ) (rest : List (Command τ))
      (next : state.commands = .remove torrent :: rest) (out : torrent ∉ state.live) :
      Step state { state with commands := rest }
  | record (state : Protocol τ ν) (torrent : τ) (rest : List (Command τ))
      (next : state.commands = .save torrent :: rest) (there : torrent ∈ state.live) :
      Step state { state with commands := rest, saving := state.saving ++ [torrent] }
  | reject (state : Protocol τ ν) (torrent : τ) (rest : List (Command τ))
      (next : state.commands = .save torrent :: rest) (out : torrent ∉ state.live) :
      Step state { state with commands := rest }
  | expire (state : Protocol τ ν) (torrent : τ) (made : torrent ∈ state.made)
      (out : torrent ∉ state.live) :
      Step state { state with expired := insert torrent state.expired }

abbrev Steps : Protocol τ ν → Protocol τ ν → Prop := Relation.ReflTransGen (Step name)

end Protocol

end NuvioEngine.Backend
