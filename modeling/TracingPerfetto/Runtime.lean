import TracingPerfetto.Wire

/-!
Configuration and shared value types of the layer (`lib.rs`, `runtime.rs`), and
the id allocators. Elsewhere uuids and flow ids are named by the number of the
draw that handed them out; `drawValue` is the `u64` behind a draw.
-/

namespace TracingPerfetto.Runtime

open TracingPerfetto.Wire

inductive SpanMode where
  | both
  | threadTracks
  | spanTracks
  deriving DecidableEq, Repr

def SpanMode.emitThreadSlices : SpanMode → Bool
  | .threadTracks | .both => true
  | .spanTracks => false

def SpanMode.emitSpanSlices : SpanMode → Bool
  | .spanTracks | .both => true
  | .threadTracks => false

structure Config where
  spanMode : SpanMode
  debugAnnotations : Bool
  pollSlices : Bool
  sourceLocations : Bool
  counters : Bool
  processArguments : Bool
  deriving DecidableEq, Repr

/-- A `&'static str`: where it starts, which is never null, and how long it is. Its
text is whatever the immutable static memory holds there. -/
structure StaticStr where
  ptr : Nat
  len : Nat
  ptr_ne : ptr ≠ 0
  deriving DecidableEq, Repr

/-- The static memory of the program, which holds the literal `"poll"` that
`on_enter` interns. -/
structure StaticMemory where
  byte : Nat → UInt8
  poll : StaticStr
  poll_text : (List.range poll.len).map (fun i => byte (poll.ptr + i)) = "poll".toUTF8.data.toList

/-- A memory with the word "poll" at 16. -/
instance : Inhabited StaticMemory where
  default :=
    { byte := fun address => "poll".toUTF8.data.toList.getD (address - 16) 0
      poll := ⟨16, 4, by decide⟩
      poll_text := by decide +kernel }

def StaticMemory.text (memory : StaticMemory) (value : StaticStr) : Bytes :=
  (List.range value.len).map fun i => memory.byte (value.ptr + i)

/-- The `u64` bits of a signed value, as `as u64` gives them. -/
def asU64 (value : Int) : Nat := (value % 2 ^ 64).toNat

inductive FieldValue where
  | bool (value : Bool)
  | i64 (value : Int)
  | u64 (value : Nat)
  | f64 (bits : Nat)
  | str (text : Bytes)
  deriving DecidableEq, Repr

inductive PendingFlow where
  | start (flow : Nat)
  | terminate (flow : Nat)
  deriving DecidableEq, Repr

structure RetainedSpanData where
  fields : List (StaticStr × FieldValue)
  pendingFlows : List PendingFlow
  pollFlowId : Option Nat
  deriving DecidableEq, Repr

def RetainedSpanData.default : RetainedSpanData := ⟨[], [], none⟩

def RetainedSpanData.clear (_ : RetainedSpanData) : RetainedSpanData := ⟨[], [], none⟩

/-! ## Allocators -/

/-- One `fetch_add` on a wrapping 64-bit counter: the value and the counter after
it. -/
def fetchAdd (next : Nat) : Nat × Nat := (next, (next + 1) % 2 ^ 64)

/-- The loop of `alloc_uuid` and `alloc_flow_id`: zero is skipped, and the value
after zero is not zero, so two rounds are enough. -/
def allocNonZero (next : Nat) : Nat × Nat :=
  let (value, next) := fetchAdd next
  if value ≠ 0 then (value, next) else fetchAdd next

/-- The counter before the `n`-th draw, from the random base. -/
def counterAt (base : Nat) : Nat → Nat
  | 0 => base
  | n + 1 => (allocNonZero (counterAt base n)).2

/-- The value handed out by the `n`-th draw. -/
def drawValue (base n : Nat) : Nat := (allocNonZero (counterAt base n)).1

structure IdBases where
  uuidBase : Nat
  flowIdBase : Nat
  uuidBase_lt : uuidBase < 2 ^ 64
  flowIdBase_lt : flowIdBase < 2 ^ 64

instance : Inhabited IdBases := ⟨⟨5, 9, by decide, by decide⟩⟩

def IdBases.uuid (bases : IdBases) (n : Nat) : Nat := drawValue bases.uuidBase n

def IdBases.flowId (bases : IdBases) (n : Nat) : Nat := drawValue bases.flowIdBase n

theorem allocNonZero_eq (next : Nat) :
    allocNonZero next = if next = 0 then (1, 2) else (next, (next + 1) % 2 ^ 64) := by
  simp only [allocNonZero, fetchAdd]
  by_cases hzero : next = 0
  · simp [hzero]
  · simp [hzero]

/-- Draws walk around the ring of the nonzero values. -/
theorem drawValue_eq {base : Nat} (h : base < 2 ^ 64) (n : Nat) :
    drawValue base n = (base - 1 + n) % (2 ^ 64 - 1) + 1 ∧
      (counterAt base (n + 1) = (drawValue base n + 1) % 2 ^ 64) := by
  induction n with
  | zero =>
      rw [counterAt, drawValue, counterAt, allocNonZero_eq]
      by_cases hzero : base = 0
      · simp [hzero]
      · simp only [hzero, if_false, and_true]
        omega
  | succ n ih =>
      obtain ⟨hvalue, hnext⟩ := ih
      rw [counterAt, drawValue, allocNonZero_eq]
      by_cases hzero : counterAt base (n + 1) = 0
      · simp only [hzero, if_true]
        rw [hzero, hvalue] at hnext
        omega
      · simp only [hzero, if_false, and_true]
        rw [hnext, hvalue] at hzero ⊢
        omega

/-- Draws do not repeat before every nonzero value has been handed out. -/
theorem drawValue_injective {base m n : Nat} (h : base < 2 ^ 64) (hm : m < 2 ^ 64 - 1)
    (hn : n < 2 ^ 64 - 1) (heq : drawValue base m = drawValue base n) : m = n := by
  rw [(drawValue_eq h m).1, (drawValue_eq h n).1] at heq
  omega

end TracingPerfetto.Runtime
