import Mathlib.Logic.Function.Basic
import Mathlib.Data.List.FinRange

/-!
The two-tier store of active spans (`span_state.rs`). Every operation has up to three
critical sections: the fast shard under its mutex, the overflow map, and what is done
through the guard of an entry that was found. One step is one critical section of one
operation. A guard keeps its lock between steps: the mutex of the fast shard, or a
read or a write lock on the map's own shard of the key.
-/

namespace TracingPerfetto.SpanStore

abbrev SpanId := UInt64

def fastShards : Nat := 8

def fastSlots : Nat := 4

structure ActiveEntry (Data : Type) where
  spanId : SpanId
  data : Data

abbrev ActiveSlots (Data : Type) := Fin fastSlots → Option (ActiveEntry Data)

namespace ActiveSlots

variable {Data : Type}

def new : ActiveSlots Data := fun _ => none

/-- The first free slot takes the entry. -/
def insert (slots : ActiveSlots Data) (spanId : SpanId) (data : Data) :
    Option (ActiveSlots Data) :=
  ((List.finRange fastSlots).find? fun index => (slots index).isNone).map fun index =>
    Function.update slots index (some ⟨spanId, data⟩)

def index (slots : ActiveSlots Data) (spanId : SpanId) : Option (Fin fastSlots) :=
  (List.finRange fastSlots).find? fun index =>
    (slots index).any fun entry => entry.spanId == spanId

def take (slots : ActiveSlots Data) (spanId : SpanId) : Option (Data × ActiveSlots Data) := do
  let index ← slots.index spanId
  let entry ← slots index
  some (entry.data, Function.update slots index none)

end ActiveSlots

def activeShard (spanId : SpanId) : Nat :=
  let mixed := spanId + 0x9e3779b97f4a7c15
  let mixed := (mixed ^^^ (mixed >>> 30)) * 0xbf58476d1ce4e5b9
  (mixed ^^^ (mixed >>> 27)).toNat &&& (fastShards - 1)

/-- The operations. What is done through the guard of `get_mut` is a list of updates
of the entry, made one at a time. -/
inductive Call (Data : Type) where
  | insert (spanId : SpanId) (data : Data)
  | get (spanId : SpanId)
  | getMut (spanId : SpanId) (updates : List (Data → Data))
  | take (spanId : SpanId)

def Call.spanId {Data : Type} : Call Data → SpanId
  | .insert spanId _ | .get spanId | .getMut spanId _ | .take spanId => spanId

/-- What the guard of a look-up is used for. -/
def Call.updates {Data : Type} : Call Data → List (Data → Data)
  | .getMut _ updates => updates
  | _ => []

/-- What an operation returns: of a guard, what it shows last. -/
inductive Result (Data : Type) where
  | inserted
  | found (data : Option Data)
  deriving DecidableEq

/-- `SpanRef` and `SpanRefMut`. -/
inductive Guard where
  | fast (shard : Nat) (index : Fin fastSlots)
  | shared
  | exclusive

inductive Phase (Data : Type) where
  | called
  | missed
  | holding (guard : Guard)
  | returned (result : Result Data) (time : Nat)

structure Op (Data : Type) where
  call : Call Data
  calledAt : Nat
  phase : Phase Data

/-- The owner of an exclusive lock, with the updates that it has still to make. -/
structure Holder (Data : Type) where
  op : Nat
  spanId : SpanId
  updates : List (Data → Data)

structure ActiveShard (Data : Type) where
  slots : ActiveSlots Data
  holder : Option (Holder Data)

/-- What the expectations of the code can fail with. -/
inductive Failure where
  | zeroId
  | unoccupied
  | replaced
  deriving DecidableEq, Repr

structure Store (Data : Type) where
  active : Nat → ActiveShard Data
  overflow : SpanId → Option Data
  writer : Nat → Option (Holder Data)
  readers : Nat → List Nat
  ops : Nat → Option (Op Data)
  nextOp : Nat
  clock : Nat
  failures : List Failure

namespace Store

variable {Data : Type}

def new : Store Data where
  active := fun _ => ⟨ActiveSlots.new, none⟩
  overflow := fun _ => none
  writer := fun _ => none
  readers := fun _ => []
  ops := fun _ => none
  nextOp := 0
  clock := 0
  failures := []

def setShard (store : Store Data) (shard : Nat) (active : ActiveShard Data) : Store Data :=
  { store with active := Function.update store.active shard active }

/-- The operation is in its next phase, one step later. -/
def goto (store : Store Data) (op : Nat) (record : Op Data) (phase : Phase Data) : Store Data :=
  { store with
    ops := Function.update store.ops op (some { record with phase := phase })
    clock := store.clock + 1 }

def finish (store : Store Data) (op : Nat) (record : Op Data) (result : Result Data) :
    Store Data :=
  store.goto op record (.returned result store.clock)

def fail (store : Store Data) (failure : Failure) : Store Data :=
  { store with failures := failure :: store.failures, clock := store.clock + 1 }

/-- The critical section of the fast shard. -/
def first (store : Store Data) (op : Nat) (record : Op Data) : Option (Store Data) :=
  let shard := activeShard record.call.spanId
  let active := store.active shard
  match active.holder with
  | some _ => none
  | none =>
      match record.call with
      | .insert spanId data =>
          match active.slots.insert spanId data with
          | some slots =>
              if spanId = 0 then some (store.fail .zeroId)
              else some ((store.setShard shard ⟨slots, none⟩).finish op record .inserted)
          | none => some (store.goto op record .missed)
      | .take spanId =>
          match active.slots.take spanId with
          | some (data, slots) =>
              some ((store.setShard shard ⟨slots, none⟩).finish op record (.found (some data)))
          | none => some (store.goto op record .missed)
      | .get spanId | .getMut spanId _ =>
          match active.slots.index spanId with
          | some index =>
              some ((store.setShard shard
                ⟨active.slots, some ⟨op, spanId, record.call.updates⟩⟩).goto op record
                  (.holding (.fast shard index)))
          | none => some (store.goto op record .missed)

section Overflow

-- The map's own shard of a key.
variable (mapShard : SpanId → Nat)

/-- The critical section of the overflow map. -/
def second (store : Store Data) (op : Nat) (record : Op Data) : Option (Store Data) :=
  let shard := mapShard record.call.spanId
  match store.writer shard with
  | some _ => none
  | none =>
      match record.call with
      | .get spanId =>
          match store.overflow spanId with
          | some _ =>
              some ({ store with
                readers := Function.update store.readers shard
                  (op :: store.readers shard) }.goto op record (.holding .shared))
          | none => some (store.finish op record (.found none))
      | .insert spanId data =>
          if store.readers shard ≠ [] then none
          else if (store.overflow spanId).isSome then some (store.fail .replaced)
          else
            some ({ store with
              overflow := Function.update store.overflow spanId (some data) }.finish op record
                .inserted)
      | .getMut spanId updates =>
          if store.readers shard ≠ [] then none
          else
            match store.overflow spanId with
            | some _ =>
                some ({ store with
                  writer := Function.update store.writer shard
                    (some ⟨op, spanId, updates⟩) }.goto op record (.holding .exclusive))
            | none => some (store.finish op record (.found none))
      | .take spanId =>
          if store.readers shard ≠ [] then none
          else
            match store.overflow spanId with
            | some data =>
                some ({ store with
                  overflow := Function.update store.overflow spanId none }.finish op record
                    (.found (some data)))
            | none => some (store.finish op record (.found none))

/-- One use of a guard: the next update, or the last look and the guard's drop. -/
def hold (store : Store Data) (op : Nat) (record : Op Data) : Guard → Option (Store Data)
  | .fast shard index =>
      match (store.active shard).holder with
      | none => none
      | some holder =>
          match (store.active shard).slots index, holder.updates with
          | none, _ => some (store.fail .unoccupied)
          | some entry, update :: updates =>
              some ((store.setShard shard
                ⟨Function.update (store.active shard).slots index
                    (some { entry with data := update entry.data }),
                  some { holder with updates := updates }⟩).goto op record
                    (.holding (.fast shard index)))
          | some entry, [] =>
              some ((store.setShard shard ⟨(store.active shard).slots, none⟩).finish op record
                (.found (some entry.data)))
  | .shared =>
      let shard := mapShard record.call.spanId
      match store.overflow record.call.spanId with
      | none => some (store.fail .unoccupied)
      | some data =>
          some ({ store with
            readers := Function.update store.readers shard
              ((store.readers shard).erase op) }.finish op record (.found (some data)))
  | .exclusive =>
      let shard := mapShard record.call.spanId
      match store.writer shard with
      | none => none
      | some holder =>
          match store.overflow record.call.spanId, holder.updates with
          | none, _ => some (store.fail .unoccupied)
          | some data, update :: updates =>
              some ({ store with
                overflow := Function.update store.overflow record.call.spanId
                  (some (update data))
                writer := Function.update store.writer shard
                  (some { holder with updates := updates }) }.goto op record
                    (.holding .exclusive))
          | some data, [] =>
              some ({ store with
                writer := Function.update store.writer shard none }.finish op record
                  (.found (some data)))

/-- An insertion of this id is under way. -/
def inserting (store : Store Data) (spanId : SpanId) : Bool :=
  (List.range store.nextOp).any fun op =>
    match store.ops op with
    | some ⟨.insert other _, _, .called⟩ | some ⟨.insert other _, _, .missed⟩ => other == spanId
    | _ => false

/-- The entry of an id, in either tier. -/
def stored (store : Store Data) (spanId : SpanId) : Option Data :=
  match ((store.active (activeShard spanId)).slots.index spanId).bind fun index =>
      (store.active (activeShard spanId)).slots index with
  | some entry => some entry.data
  | none => store.overflow spanId

/-- What the callers promise: the ids of new entries are not zero, and unique among
the ids in use. -/
def allowed (store : Store Data) : Call Data → Bool
  | .insert spanId _ =>
      spanId != 0 && (store.stored spanId).isNone && !store.inserting spanId
  | _ => true

inductive Label (Data : Type) where
  | call (call : Call Data)
  | act (op : Nat)

def step (store : Store Data) : Label Data → Option (Store Data)
  | .call call =>
      if store.allowed call then
        some { store with
          ops := Function.update store.ops store.nextOp (some ⟨call, store.clock, .called⟩)
          nextOp := store.nextOp + 1
          clock := store.clock + 1 }
      else none
  | .act op =>
      match store.ops op with
      | none => none
      | some record =>
          match record.phase with
          | .called => store.first op record
          | .missed => store.second mapShard op record
          | .holding guard => store.hold mapShard op record guard
          | .returned _ _ => none

def run (labels : List (Label Data)) (store : Store Data) : Option (Store Data) :=
  labels.foldlM (step mapShard) store

end Overflow

end Store

end TracingPerfetto.SpanStore
