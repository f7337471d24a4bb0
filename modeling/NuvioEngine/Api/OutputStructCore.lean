import NuvioEngine.Scheduler.SchedulerCore

/-!
Executable embedding of the versioned output structs of the C interface in `engine.cpp`: their
layouts, the `*_init_sized` functions and the four functions that fill a caller's buffer. Memory
is addressed from the start of the buffer, and every write of a call is logged.
-/

namespace NuvioEngine.Api

/-- A member of a C struct. -/
structure Member where
  size : Nat
  align : Nat

def alignUp (offset align : Nat) : Nat := (offset + align - 1) / align * align

/-- The end of the last of the members laid out one after the other. -/
def layoutEnd (members : List Member) : Nat :=
  members.foldl (fun offset member => alignUp offset member.align + member.size) 0

def sizeOf (members : List Member) : Nat :=
  alignUp (layoutEnd members) (members.foldl (fun widest member => max widest member.align) 1)

def uint32 : Member := ⟨4, 4⟩

def uint64 : Member := ⟨8, 8⟩

def chars (count : Nat) : Member := ⟨count, 1⟩

inductive OutputStruct where
  | event
  | file
  | stats
  | streamStats
  deriving DecidableEq, Repr

namespace OutputStruct

/-- The members up to the last one of the first version, and the later ones. -/
def versionOne : OutputStruct → List Member
  | event => [uint32, uint32, uint64, uint64, uint64, chars 65, chars 256]
  | file => [uint32, uint32, uint64, uint64, chars 1, chars 7, chars 1024]
  | stats => List.replicate 8 uint32 ++ List.replicate 10 uint64
  | streamStats => [uint32, uint32, uint64, uint64, uint64, uint64]

def laterMembers : OutputStruct → List Member
  | event => [uint32, uint32, uint64, chars 65, chars 512]
  | file => []
  | stats =>
      List.replicate 2 uint32 ++ List.replicate 5 uint64 ++ [chars 1, chars 7] ++
        List.replicate 19 uint32 ++ List.replicate 10 uint64
  | streamStats => List.replicate 6 uint32 ++ List.replicate 5 uint64

def v1Size (struct : OutputStruct) : Nat := layoutEnd struct.versionOne

def size (struct : OutputStruct) : Nat := sizeOf (struct.versionOne ++ struct.laterMembers)

end OutputStruct

abbrev Memory := Nat → UInt8

def le32 (value : Nat) : List UInt8 :=
  [.ofNat value, .ofNat (value / 2 ^ 8), .ofNat (value / 2 ^ 16), .ofNat (value / 2 ^ 24)]

def le64 (value : Nat) : List UInt8 := le32 value ++ le32 (value / 2 ^ 32)

def Memory.structSize (memory : Memory) : Nat :=
  (memory 0).toNat + 2 ^ 8 * (memory 1).toNat + 2 ^ 16 * (memory 2).toNat + 2 ^ 24 * (memory 3).toNat

def Memory.store (memory : Memory) (offset : Nat) (bytes : List UInt8) : Memory := fun address =>
  if offset ≤ address then (bytes[address - offset]?).getD (memory address) else memory address

/-- An object of the library's own struct type, as `refresh_stats` and `push_event` make it: its
first member holds the size of the whole. -/
structure Snapshot (struct : OutputStruct) where
  body : List UInt8
  sized : 4 + body.length = struct.size

def Snapshot.bytes {struct : OutputStruct} (snapshot : Snapshot struct) : List UInt8 :=
  le32 struct.size ++ snapshot.body

/-- A caller's buffer and what the calls wrote, as offset and length. -/
structure Buffer where
  memory : Memory
  writes : List (Nat × Nat) := []

def memcpy (buffer : Buffer) (bytes : List UInt8) : Buffer :=
  ⟨buffer.memory.store 0 bytes, buffer.writes ++ [(0, bytes.length)]⟩

def initializeStructure (memory : Memory) (structSize : Nat) : Memory :=
  let cleared := memory.store 0 (List.replicate structSize 0)
  if structSize < 4 then cleared else cleared.store 0 (le32 structSize)

/-- The matching `*_init_sized` function; the one for events also presets `file_index`. -/
def initSized (struct : OutputStruct) (memory : Memory) (structSize : Nat) : Memory :=
  let initialized := initializeStructure memory structSize
  match struct with
  | .event =>
      let fileIndexSize := layoutEnd (OutputStruct.event.versionOne ++ [uint32])
      if structSize ≥ fileIndexSize ∧ ¬ structSize < 4 then
        initialized.store (fileIndexSize - 4) (le32 uint32Max)
      else initialized
  | _ => initialized

inductive Status where
  | ok
  | invalidArgument
  | incompatibleAbi
  | allocationFailed
  | initializationFailed
  | noEvent
  | notFound
  | metadataNotReady
  | outOfRange
  deriving DecidableEq, Repr

structure FileMetadata where
  offset : Nat
  size : Nat
  path : List UInt8

/-- The state of the runtime that the four functions read. -/
structure Runtime where
  events : List (Snapshot .event)
  files : List UInt8 → Option (List FileMetadata)
  stats : Snapshot .stats
  streamStats : List UInt8 → Option (Snapshot .streamStats)

/-- A C string is the bytes before the first zero; the end of the list also ends it. -/
def boundedStringLength (maximum : Nat) : List UInt8 → Nat → Nat
  | [], length => length
  | byte :: rest, length =>
      if length ≤ maximum ∧ byte ≠ 0 then boundedStringLength maximum rest (length + 1) else length

def isHexDigit (byte : UInt8) : Bool :=
  (48 ≤ byte && byte ≤ 57) || (65 ≤ byte && byte ≤ 70) || (97 ≤ byte && byte ≤ 102)

def toLower (byte : UInt8) : UInt8 := if 65 ≤ byte && byte ≤ 90 then byte + 32 else byte

def normalizeHex (lengths : List Nat) (text : List UInt8) : Option (List UInt8) :=
  let length := boundedStringLength 64 text 0
  if length ∉ lengths then none
  else if (text.take length).all isHexDigit then some ((text.take length).map toLower)
  else none

def normalizeTorrentId (torrentId : Option (List UInt8)) : Option (List UInt8) :=
  torrentId.bind (normalizeHex [40, 64])

def normalizeStreamId (streamId : Option (List UInt8)) : Option (List UInt8) :=
  streamId.bind (normalizeHex [64])

def copyText (capacity : Nat) (text : List UInt8) : List UInt8 :=
  let length := min text.length (capacity - 1)
  text.take length ++ List.replicate (capacity - length) 0

theorem copyText_length {capacity : Nat} (positive : 0 < capacity) (text : List UInt8) :
    (copyText capacity text).length = capacity := by
  simp only [copyText, List.length_append, List.length_take, List.length_replicate]
  omega

def fileSnapshot (fileIndex : Nat) (source : FileMetadata) : Snapshot .file where
  body := le32 fileIndex ++ le64 source.offset ++ le64 source.size ++
    [if source.path.length ≥ 1024 then 1 else 0] ++ List.replicate 7 0 ++ copyText 1024 source.path
  sized := by
    rw [show OutputStruct.file.size = 1056 by decide]
    simp [copyText_length (show 0 < 1024 by decide), le64, le32]

def Runtime.pollEvent (runtime : Runtime) : Except Status (Snapshot .event) :=
  match runtime.events with
  | [] => .error .noEvent
  | event :: _ => .ok event

def Runtime.getFile (runtime : Runtime) (torrentId : List UInt8) (fileIndex : Nat) :
    Except Status (Snapshot .file) :=
  match runtime.files torrentId with
  | none => .error .metadataNotReady
  | some files =>
      match files[fileIndex]? with
      | none => .error .outOfRange
      | some source => .ok (fileSnapshot fileIndex source)

def Runtime.getStreamStats (runtime : Runtime) (streamId : List UInt8) :
    Except Status (Snapshot .streamStats) :=
  match runtime.streamStats streamId with
  | none => .error .notFound
  | some stats => .ok stats

/-- The arguments of one call, the runtime at that moment and whether an allocation fails in it.
No runtime stands for a null engine pointer; the buffer pointer of a reused buffer is not null. -/
structure Call where
  engine : Option Runtime
  torrentId : Option (List UInt8) := none
  fileIndex : Nat := 0
  streamId : Option (List UInt8) := none
  allocationFails : Bool := false

/-- What the runtime has for the caller, once the caller's size is accepted. -/
def available (struct : OutputStruct) (call : Call) (runtime : Runtime) :
    Except Status (Snapshot struct) :=
  match struct with
  | .event => runtime.pollEvent
  | .file =>
      if call.allocationFails then .error .allocationFailed
      else match normalizeTorrentId call.torrentId with
        | none => .error .invalidArgument
        | some torrentId => runtime.getFile torrentId call.fileIndex
  | .stats => if call.allocationFails then .error .initializationFailed else .ok runtime.stats
  | .streamStats =>
      if call.allocationFails then .error .initializationFailed
      else match normalizeStreamId call.streamId with
        | none => .error .invalidArgument
        | some streamId => runtime.getStreamStats streamId

/-- The common body: the size left in the buffer bounds the copy. -/
def fillBuffer (struct : OutputStruct) (call : Call) (buffer : Buffer) : Buffer × Status :=
  match call.engine with
  | none => (buffer, .invalidArgument)
  | some runtime =>
      let callerSize := buffer.memory.structSize
      if callerSize < struct.v1Size then (buffer, .incompatibleAbi)
      else match available struct call runtime with
        | .error status => (buffer, status)
        | .ok snapshot => (memcpy buffer (snapshot.bytes.take (min callerSize struct.size)), .ok)

def nuvioEnginePollEvent (call : Call) (buffer : Buffer) : Buffer × Status :=
  fillBuffer .event call buffer

def nuvioEngineGetFile (call : Call) (buffer : Buffer) : Buffer × Status :=
  fillBuffer .file call buffer

def nuvioEngineGetStats (call : Call) (buffer : Buffer) : Buffer × Status :=
  fillBuffer .stats call buffer

def nuvioEngineGetStreamStats (call : Call) (buffer : Buffer) : Buffer × Status :=
  fillBuffer .streamStats call buffer

/-- The function that fills this struct. -/
def OutputStruct.function : OutputStruct → Call → Buffer → Buffer × Status
  | .event => nuvioEnginePollEvent
  | .file => nuvioEngineGetFile
  | .stats => nuvioEngineGetStats
  | .streamStats => nuvioEngineGetStreamStats

/-- Calls that reuse one buffer without initialising it again. -/
def runCalls (struct : OutputStruct) (calls : List Call) (buffer : Buffer) : Buffer :=
  calls.foldl (fun current call => (struct.function call current).1) buffer

end NuvioEngine.Api
