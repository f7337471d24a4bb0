import NuvioEngine.Http.ServerCore

/-!
No connection of `LoopbackServer` is leaked, closed or served twice, or queued after `stop` has emptied
the queue, in whatever order the threads take their steps.
-/

namespace NuvioEngine.Http

/-- The accept loop holds its client in a `SharedSocket`. -/
def Accepter.shares : Accepter → Bool
  | locking _ | dropping _ => true
  | checking | loading | accepting | failed | configuring _ | returned => false

/-- The worker has closed its connection. -/
def Worker.closed : Worker → Bool
  | erasing _ => true
  | checking | waiting | handling _ | closing _ | returned => false

namespace Server

/-- Where the sockets are: every accepted one is with one owner or closed, and each owner knows whether
it is open. -/
structure Consistent (server : Server) : Prop where
  accepting : ∀ socket, server.accepter.socket = some socket → socket < server.accepted ∧
    socket ∉ server.queue ∧ socket ∉ server.served ∧ server.closes socket = 0 ∧
    server.shared socket = server.accepter.shares
  queued : ∀ socket ∈ server.queue, socket < server.accepted ∧ socket ∉ server.served ∧
    server.closes socket = 0 ∧ server.shared socket = true
  working : ∀ index socket, (server.worker index).socket = some socket → socket < server.accepted ∧
    socket ∈ server.served ∧ server.closes socket = (if (server.worker index).closed then 1 else 0) ∧
    server.shared socket = !(server.worker index).closed
  alone : ∀ first second socket, (server.worker first).socket = some socket →
    (server.worker second).socket = some socket → first = second
  kept : ∀ socket < server.accepted, server.accepter.socket = some socket ∨ socket ∈ server.queue ∨
    (∃ index, (server.worker index).socket = some socket) ∨
    server.closes socket = 1 ∧ server.shared socket = false
  unborn : ∀ socket, server.accepted ≤ socket → server.closes socket = 0 ∧ server.shared socket = false
  distinct : server.queue.Nodup
  once : server.served.Nodup
  known : ∀ socket ∈ server.served, socket < server.accepted
  bounded : server.queue.length ≤ server.capacity

section Consistent

variable {server next : Server}

theorem Consistent.initial (begins : server.Initial) : server.Consistent := by
  obtain ⟨capacity, workerCount, accepter, idle, rfl⟩ := begins
  have none : accepter.socket = none := by rcases idle with rfl | rfl <;> rfl
  constructor
  · intro socket held
    simp [none] at held
  · simp
  · simp [Worker.socket]
  · simp [Worker.socket]
  · simp
  · simp
  · exact List.nodup_nil
  · exact List.nodup_nil
  · simp
  · exact Nat.zero_le _

theorem Consistent.congr (consistent : server.Consistent)
    (accepter : next.accepter.socket = server.accepter.socket)
    (shares : next.accepter.shares = server.accepter.shares)
    (worker : ∀ index, (next.worker index).socket = (server.worker index).socket)
    (closed : ∀ index, (next.worker index).closed = (server.worker index).closed)
    (accepted : next.accepted = server.accepted) (shared : next.shared = server.shared)
    (closes : next.closes = server.closes) (queue : next.queue = server.queue)
    (served : next.served = server.served) (capacity : next.capacity = server.capacity) :
    next.Consistent := by
  constructor
  · rw [accepter, accepted, queue, served, closes, shared, shares]
    exact consistent.accepting
  · rw [accepted, queue, served, closes, shared]
    exact consistent.queued
  · simp only [worker, closed, accepted, served, closes, shared]
    exact consistent.working
  · simp only [worker]
    exact consistent.alone
  · simp only [worker, accepter, accepted, queue, closes, shared]
    exact consistent.kept
  · rw [accepted, closes, shared]
    exact consistent.unborn
  · rw [queue]
    exact consistent.distinct
  · rw [served]
    exact consistent.once
  · rw [served, accepted]
    exact consistent.known
  · rw [queue, capacity]
    exact consistent.bounded

theorem Consistent.accept (consistent : server.Consistent) (idle : server.accepter.socket = none) :
    { server with
      accepter := .configuring server.accepted
      accepted := server.accepted + 1 }.Consistent := by
  obtain ⟨accepting, queued, working, alone, kept, unborn, distinct, once, known, bounded⟩ := consistent
  have fresh := unborn server.accepted le_rfl
  constructor <;> simp only [Accepter.socket, Accepter.shares] <;> grind

theorem Consistent.share {socket : Nat} (consistent : server.Consistent)
    (here : server.accepter = .configuring socket) :
    { server with
      shared := Function.update server.shared socket true
      accepter := .locking socket }.Consistent := by
  obtain ⟨accepting, queued, working, alone, kept, unborn, distinct, once, known, bounded⟩ := consistent
  rw [here] at accepting kept
  constructor <;> simp only [Accepter.socket, Accepter.shares, Function.update_apply] at * <;> grind

theorem Consistent.dropOwned {socket : Nat} (consistent : server.Consistent)
    (here : server.accepter = .configuring socket) :
    { server.closeSocket socket with accepter := .checking }.Consistent := by
  obtain ⟨accepting, queued, working, alone, kept, unborn, distinct, once, known, bounded⟩ := consistent
  rw [here] at accepting kept
  constructor <;>
    simp only [Accepter.socket, Accepter.shares, closeSocket, Function.update_apply] at * <;> grind

theorem Consistent.push {socket : Nat} (consistent : server.Consistent)
    (here : server.accepter = .locking socket) (room : server.queue.length < server.capacity) :
    { server with queue := server.queue ++ [socket], accepter := .checking }.Consistent := by
  obtain ⟨accepting, queued, working, alone, kept, unborn, distinct, once, known, bounded⟩ := consistent
  rw [here] at accepting kept
  constructor <;> simp only [Accepter.socket, Accepter.shares] at * <;> grind

theorem closeShared_of_shared {socket : Nat} (held : server.shared socket = true) :
    server.closeShared socket =
      { server.closeSocket socket with shared := Function.update server.shared socket false } := by
  rw [closeShared, if_pos held]

theorem closeShared_of_not_shared {socket : Nat} (gone : server.shared socket = false) :
    server.closeShared socket = server := by
  rw [closeShared, gone, if_neg Bool.false_ne_true]

theorem Consistent.dropShared {socket : Nat} (consistent : server.Consistent)
    (here : server.accepter = .dropping socket) :
    { server.closeShared socket with accepter := .checking }.Consistent := by
  have held : server.shared socket = true := by
    have known := consistent.accepting socket (by rw [here]; rfl)
    rw [known.2.2.2.2, here]
    rfl
  rw [closeShared_of_shared held]
  obtain ⟨accepting, queued, working, alone, kept, unborn, distinct, once, known, bounded⟩ := consistent
  rw [here] at accepting kept
  constructor <;>
    simp only [Accepter.socket, Accepter.shares, closeSocket, Function.update_apply] at * <;> grind

theorem Consistent.pop {index socket : Nat} {rest : List Nat} (consistent : server.Consistent)
    (idle : (server.worker index).socket = none) (first : server.queue = socket :: rest) :
    ({ server with
      queue := rest
      active := insert socket server.active
      served := server.served ++ [socket] }.setWorker index (.handling socket)).Consistent := by
  obtain ⟨accepting, queued, working, alone, kept, unborn, distinct, once, known, bounded⟩ := consistent
  rw [first] at accepting queued kept distinct bounded
  constructor <;> simp only [setWorker, Function.update_apply] at * <;>
    grind [Worker.socket, Worker.closed]

theorem Consistent.closeWorker {index socket : Nat} (consistent : server.Consistent)
    (here : server.worker index = .closing socket) :
    ((server.closeShared socket).setWorker index (.erasing socket)).Consistent := by
  have mine := consistent.working index socket (by rw [here]; rfl)
  rw [here] at mine
  rw [closeShared_of_shared (by rw [mine.2.2.2]; rfl)]
  obtain ⟨accepting, queued, working, alone, kept, unborn, distinct, once, known, bounded⟩ := consistent
  constructor <;> simp only [setWorker, closeSocket, Function.update_apply] at * <;>
    grind [Worker.socket, Worker.closed]

theorem Consistent.release {index socket : Nat} (consistent : server.Consistent)
    (here : server.worker index = .erasing socket) :
    (({ server with active := server.active.erase socket }.closeShared socket).setWorker index
      .checking).Consistent := by
  have mine := consistent.working index socket (by rw [here]; rfl)
  rw [here] at mine
  rw [closeShared_of_not_shared (by rw [mine.2.2.2]; rfl)]
  obtain ⟨accepting, queued, working, alone, kept, unborn, distinct, once, known, bounded⟩ := consistent
  constructor <;> simp only [setWorker, Function.update_apply] at * <;>
    grind [Worker.socket, Worker.closed]

theorem foldl_closeShared (sockets : List Nat) (distinct : sockets.Nodup)
    (held : ∀ socket ∈ sockets, server.shared socket = true) :
    ∃ shut, sockets.foldl closeShared server = { server with
      shut := shut
      closes := fun socket => server.closes socket + if socket ∈ sockets then 1 else 0
      shared := fun socket => server.shared socket && !decide (socket ∈ sockets) } := by
  induction sockets generalizing server with
  | nil => exact ⟨server.shut, by simp⟩
  | cons first rest ih =>
      obtain ⟨absent, distinctRest⟩ := List.nodup_cons.mp distinct
      rw [List.foldl_cons, closeShared_of_shared (held first List.mem_cons_self)]
      obtain ⟨shut, same⟩ := @ih { server.closeSocket first with
        shared := Function.update server.shared first false } distinctRest (by
          intro socket member
          have different : socket ≠ first := fun same => absent (same ▸ member)
          simp only [Function.update_apply, different, if_false]
          exact held socket (List.mem_cons_of_mem _ member))
      refine ⟨shut, same.trans ?_⟩
      simp only [closeSocket, Function.update_apply, List.mem_cons]
      congr 1 <;> funext socket <;> grind

theorem Consistent.drain (consistent : server.Consistent) : server.drain.Consistent := by
  obtain ⟨shut, same⟩ := foldl_closeShared server.queue consistent.distinct
    fun socket member => (consistent.queued socket member).2.2.2
  unfold Server.drain
  rw [same]
  obtain ⟨accepting, queued, working, alone, kept, unborn, distinct, once, known, bounded⟩ := consistent
  constructor <;> simp only <;> grind

theorem Consistent.pass (consistent : server.Consistent) {place : Accepter}
    (before : server.accepter.socket = none) (shares : server.accepter.shares = false)
    (after : place.socket = none) (later : place.shares = false) :
    { server with accepter := place }.Consistent :=
  consistent.congr (after.trans before.symm) (later.trans shares.symm) (fun _ => rfl) (fun _ => rfl)
    rfl rfl rfl rfl rfl rfl

theorem Consistent.acceptLoop (consistent : server.Consistent) (succeeds : Bool) :
    (server.acceptLoop succeeds).Consistent := by
  unfold Server.acceptLoop
  split
  · rename_i here
    refine consistent.pass (by rw [here]; rfl) (by rw [here]; rfl) ?_ ?_ <;> split <;> rfl
  · rename_i here
    refine consistent.pass (by rw [here]; rfl) (by rw [here]; rfl) ?_ ?_ <;> split <;> rfl
  · rename_i here
    split
    · exact consistent.accept (by rw [here]; rfl)
    · exact consistent.pass (by rw [here]; rfl) (by rw [here]; rfl) rfl rfl
  · rename_i here
    refine consistent.pass (by rw [here]; rfl) (by rw [here]; rfl) ?_ ?_ <;> split <;> rfl
  · rename_i socket here
    split
    · exact consistent.share here
    · exact consistent.dropOwned here
  · rename_i socket here
    split
    · exact consistent.congr (by rw [here]; rfl) (by rw [here]; rfl) (fun _ => rfl) (fun _ => rfl)
        rfl rfl rfl rfl rfl rfl
    · rename_i room
      exact consistent.push here (by simp at room; omega)
  · rename_i socket here
    exact consistent.dropShared here
  · exact consistent

theorem Consistent.move (consistent : server.Consistent) {index : Nat} {place : Worker}
    (socket : place.socket = (server.worker index).socket)
    (closed : place.closed = (server.worker index).closed) :
    (server.setWorker index place).Consistent := by
  refine consistent.congr rfl rfl (fun other => ?_) (fun other => ?_) rfl rfl rfl rfl rfl rfl
  all_goals
    simp only [setWorker, Function.update_apply]
    split
    · rename_i same
      rw [same]
      assumption
    · rfl

theorem Consistent.workerLoop (consistent : server.Consistent) (index : Nat) :
    (server.workerLoop index).Consistent := by
  unfold Server.workerLoop
  split
  · rename_i here
    apply consistent.move <;> rw [here] <;> split <;> rfl
  · rename_i here
    split
    · apply consistent.move <;> rw [here] <;> rfl
    · split
      · exact consistent
      · rename_i socket rest first
        exact consistent.pop (by rw [here]; rfl) first
  · rename_i socket here
    apply consistent.move <;> rw [here] <;> rfl
  · rename_i socket here
    exact consistent.closeWorker here
  · rename_i socket here
    exact consistent.release here
  · exact consistent

theorem Consistent.stop (consistent : server.Consistent) : server.stop.Consistent := by
  have same : ∀ {next : Server}, next.accepter = server.accepter → next.worker = server.worker →
      next.accepted = server.accepted → next.shared = server.shared → next.closes = server.closes →
      next.queue = server.queue → next.served = server.served → next.capacity = server.capacity →
      next.Consistent := by
    intro next accepter worker
    exact consistent.congr (by rw [accepter]) (by rw [accepter]) (fun _ => by rw [worker])
      (fun _ => by rw [worker])
  unfold Server.stop
  split
  case h_5 =>
    have drained := consistent.drain
    exact drained.congr rfl rfl (fun _ => rfl) (fun _ => rfl) rfl rfl rfl rfl rfl rfl
  all_goals (repeat' split) <;> exact same rfl rfl rfl rfl rfl rfl rfl rfl

end Consistent

end Server

end NuvioEngine.Http
