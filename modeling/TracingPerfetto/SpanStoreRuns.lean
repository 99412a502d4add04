import TracingPerfetto.SpanStoreLinear

/-!
Runs of the span store. A lock belongs to an operation that is using its guard, which nobody
keeps from its next step; so an operation that waits does so for one that can go on, and each
returns after its updates and three more steps.
-/

namespace TracingPerfetto.SpanStore

open Linearizability (Entry Linearizes)

/-! ## Locks -/

/-- The exclusive locks: those of the fast shards, and the write locks of the map's shards. -/
inductive Lock where
  | fast (shard : Nat)
  | slow (shard : Nat)
  deriving DecidableEq

namespace Store

section Locks

variable {Data : Type} (mapShard : SpanId → Nat)

def owner (store : Store Data) : Lock → Option (Holder Data)
  | .fast shard => (store.active shard).holder
  | .slow shard => store.writer shard

/-- The exclusive lock that an operation has. -/
def lockOf (record : Op Data) : Option Lock :=
  match record.phase with
  | .holding (.fast shard _) => some (.fast shard)
  | .holding .exclusive => some (.slow (mapShard record.call.spanId))
  | _ => none

/-- The operation reads in a shard of the map. -/
def Reads (record : Op Data) (shard : Nat) : Prop :=
  record.phase = .holding .shared ∧ mapShard record.call.spanId = shard

/-- Every lock belongs to an operation that is using its guard. -/
structure Held (store : Store Data) : Prop where
  owner : ∀ lock holder, store.owner lock = some holder →
    ∃ record, store.ops holder.op = some record ∧ lockOf mapShard record = some lock
  readers : ∀ shard, ∀ op ∈ store.readers shard,
    ∃ record, store.ops op = some record ∧ Reads mapShard record shard
  nodup : ∀ shard, (store.readers shard).Nodup

/-- The steps that an operation has still to make: at most two until it has its guard, one for
each update, and the last. -/
def left (store : Store Data) (record : Op Data) : Nat :=
  match record.phase with
  | .called => record.call.updates.length + 3
  | .missed => record.call.updates.length + 2
  | .holding _ => (((lockOf mapShard record).bind store.owner).map
      fun holder => holder.updates.length).getD 0 + 1
  | .returned _ _ => 0

def Returned (record : Op Data) : Prop :=
  ∃ result time, record.phase = .returned result time

/-- What a step of an operation does to the locks. -/
inductive Locking (store store' : Store Data) (op : Nat) (record next : Op Data) : Prop where
  | without (howner : store'.owner = store.owner) (hreaders : store'.readers = store.readers)
      (hfree : ¬ Holding record)
      (hnext : (record.phase = .called ∧ next.phase = .missed) ∨ Returned next)
  | acquire (lock : Lock) (holder : Holder Data) (hnone : store.owner lock = none)
      (howner : store'.owner = Function.update store.owner lock (some holder))
      (hop : holder.op = op) (hupdates : holder.updates = record.call.updates)
      (hreaders : store'.readers = store.readers)
      (hfree : ¬ Holding record)
      (hnext : lockOf mapShard next = some lock)
  | update (lock : Lock) (holder : Holder Data) (change : Data → Data)
      (updates : List (Data → Data)) (hsome : store.owner lock = some holder)
      (hop : holder.op = op) (hupdates : holder.updates = change :: updates)
      (howner : store'.owner =
        Function.update store.owner lock (some { holder with updates := updates }))
      (hreaders : store'.readers = store.readers)
      (hlock : lockOf mapShard record = some lock) (hnext : lockOf mapShard next = some lock)
  | release (lock : Lock) (howner : store'.owner = Function.update store.owner lock none)
      (hreaders : store'.readers = store.readers)
      (hlock : lockOf mapShard record = some lock)
      (hnext : Returned next)
  | share (shard : Nat) (howner : store'.owner = store.owner)
      (hreaders : store'.readers =
        Function.update store.readers shard (op :: store.readers shard))
      (hfree : ¬ Holding record) (hnext : Reads mapShard next shard)
  | unshare (shard : Nat) (howner : store'.owner = store.owner)
      (hreaders : store'.readers =
        Function.update store.readers shard ((store.readers shard).erase op))
      (hlock : Reads mapShard record shard) (hnext : Returned next)

end Locks

section Steps

variable {Data : Type} {mapShard : SpanId → Nat} {store store' : Store Data} {op : Nat}
  {record : Op Data}

theorem owner_setShard (store : Store Data) (shard : Nat) (active : ActiveShard Data) :
    (store.setShard shard active).owner =
      Function.update store.owner (.fast shard) active.holder := by
  funext lock
  cases lock with
  | fast other =>
      by_cases hother : other = shard
      · subst hother
        simp [owner, setShard]
      · simp [owner, setShard, hother]
  | slow other => simp [owner, setShard]

theorem owner_writer (store : Store Data) (shard : Nat) (holder : Option (Holder Data)) :
    owner { store with writer := Function.update store.writer shard holder } =
      Function.update store.owner (.slow shard) holder := by
  funext lock
  cases lock with
  | fast other => simp [owner]
  | slow other =>
      by_cases hother : other = shard
      · subst hother
        simp [owner]
      · simp [owner, hother]

/-- A step of an operation: its next phase, and what becomes of the locks. -/
def Acts (mapShard : SpanId → Nat) (store store' : Store Data) (op : Nat) (record : Op Data) :
    Prop :=
  ∃ phase, store'.ops = Function.update store.ops op (some { record with phase := phase }) ∧
    Locking mapShard store store' op record { record with phase := phase }

theorem not_holding_called (hphase : record.phase = .called) : ¬ Holding record := by
  rintro ⟨guard, hguard⟩
  rw [hphase] at hguard
  cases hguard

theorem not_holding_missed (hphase : record.phase = .missed) : ¬ Holding record := by
  rintro ⟨guard, hguard⟩
  rw [hphase] at hguard
  cases hguard

/-- A change of the slots alone. -/
theorem owner_slots {shard : Nat} {slots : ActiveSlots Data}
    (hnone : (store.active shard).holder = none) :
    (store.setShard shard ⟨slots, none⟩).owner = store.owner := by
  rw [owner_setShard, ← hnone]
  exact Function.update_eq_self _ _

theorem first_acts (hphase : record.phase = .called)
    (hfirst : store.first op record = some store') (hintact : store'.failures = []) :
    Acts mapShard store store' op record := by
  obtain ⟨call, calledAt, phase⟩ := record
  obtain rfl : phase = .called := hphase
  have hfree : ¬ Holding (⟨call, calledAt, .called⟩ : Op Data) := not_holding_called rfl
  rcases hholder : (store.active (activeShard call.spanId)).holder with _ | holder
  · cases call with
    | insert spanId data =>
        simp only [Call.spanId] at hholder
        simp only [first, Call.spanId, hholder] at hfirst
        split at hfirst
        · split at hfirst
          · cases hfirst
            cases hintact
          · cases hfirst
            exact ⟨_, rfl, .without (owner_slots hholder) rfl hfree (.inr ⟨_, _, rfl⟩)⟩
        · cases hfirst
          exact ⟨_, rfl, .without rfl rfl hfree (.inl ⟨rfl, rfl⟩)⟩
    | take spanId =>
        simp only [Call.spanId] at hholder
        simp only [first, Call.spanId, hholder] at hfirst
        split at hfirst
        · cases hfirst
          exact ⟨_, rfl, .without (owner_slots hholder) rfl hfree (.inr ⟨_, _, rfl⟩)⟩
        · cases hfirst
          exact ⟨_, rfl, .without rfl rfl hfree (.inl ⟨rfl, rfl⟩)⟩
    | get spanId | getMut spanId =>
        simp only [Call.spanId] at hholder
        simp only [first, Call.spanId, hholder] at hfirst
        split at hfirst
        · cases hfirst
          exact ⟨_, rfl, .acquire (.fast (activeShard spanId)) _ hholder
            (owner_setShard store _ _) rfl rfl rfl hfree rfl⟩
        · cases hfirst
          exact ⟨_, rfl, .without rfl rfl hfree (.inl ⟨rfl, rfl⟩)⟩
  · simp [first, hholder] at hfirst

theorem second_acts (hphase : record.phase = .missed)
    (hsecond : store.second mapShard op record = some store') (hintact : store'.failures = []) :
    Acts mapShard store store' op record := by
  obtain ⟨call, calledAt, phase⟩ := record
  obtain rfl : phase = .missed := hphase
  have hfree : ¬ Holding (⟨call, calledAt, .missed⟩ : Op Data) := not_holding_missed rfl
  rcases hwriter : store.writer (mapShard call.spanId) with _ | holder
  · cases call with
    | get spanId =>
        simp only [Call.spanId] at hwriter
        simp only [second, Call.spanId, hwriter] at hsecond
        split at hsecond
        · cases hsecond
          exact ⟨_, rfl, .share (mapShard spanId) rfl rfl hfree ⟨rfl, rfl⟩⟩
        · cases hsecond
          exact ⟨_, rfl, .without rfl rfl hfree (.inr ⟨_, _, rfl⟩)⟩
    | insert spanId data =>
        simp only [Call.spanId] at hwriter
        by_cases hreaders : store.readers (mapShard spanId) = []
        · simp only [second, Call.spanId, hwriter, hreaders, ne_eq, not_true_eq_false,
            if_false] at hsecond
          split at hsecond
          · cases hsecond
            cases hintact
          · cases hsecond
            exact ⟨_, rfl, .without rfl rfl hfree (.inr ⟨_, _, rfl⟩)⟩
        · simp [second, Call.spanId, hwriter, hreaders] at hsecond
    | getMut spanId updates =>
        simp only [Call.spanId] at hwriter
        by_cases hreaders : store.readers (mapShard spanId) = []
        · simp only [second, Call.spanId, hwriter, hreaders, ne_eq, not_true_eq_false,
            if_false] at hsecond
          split at hsecond
          · cases hsecond
            exact ⟨_, rfl, .acquire (.slow (mapShard spanId)) _ hwriter
              (owner_writer store _ _) rfl rfl rfl hfree rfl⟩
          · cases hsecond
            exact ⟨_, rfl, .without rfl rfl hfree (.inr ⟨_, _, rfl⟩)⟩
        · simp [second, Call.spanId, hwriter, hreaders] at hsecond
    | take spanId =>
        simp only [Call.spanId] at hwriter
        by_cases hreaders : store.readers (mapShard spanId) = []
        · simp only [second, Call.spanId, hwriter, hreaders, ne_eq, not_true_eq_false,
            if_false] at hsecond
          split at hsecond
          · cases hsecond
            exact ⟨_, rfl, .without rfl rfl hfree (.inr ⟨_, _, rfl⟩)⟩
          · cases hsecond
            exact ⟨_, rfl, .without rfl rfl hfree (.inr ⟨_, _, rfl⟩)⟩
        · simp [second, Call.spanId, hwriter, hreaders] at hsecond
  · simp [second, hwriter] at hsecond

theorem hold_acts (h : store.Consistent mapShard none) (hop : store.ops op = some record)
    {guard : Guard} (hphase : record.phase = .holding guard) :
    ∃ store', store.hold mapShard op record guard = some store' ∧
      Acts mapShard store store' op record := by
  have hholds := h.locks op record (by simp) hop
  cases guard with
  | fast shard index =>
      simp only [Holds, hphase] at hholds
      obtain ⟨-, ⟨entry, hslot, -⟩, updates, hholder⟩ := hholds
      have hlock : lockOf mapShard record = some (.fast shard) := by simp [lockOf, hphase]
      cases updates with
      | nil =>
          simp only [hold, hslot, hholder]
          exact ⟨_, rfl, _, rfl, .release (.fast shard) (owner_setShard store _ _) rfl hlock
            ⟨_, _, rfl⟩⟩
      | cons update updates =>
          simp only [hold, hslot, hholder]
          exact ⟨_, rfl, _, rfl, .update (.fast shard) _ update updates hholder rfl rfl
            (owner_setShard store _ _) rfl hlock rfl⟩
  | shared =>
      simp only [Holds, hphase] at hholds
      obtain ⟨-, hsome⟩ := hholds
      obtain ⟨data, hoverflow⟩ := Option.ne_none_iff_exists'.1 hsome
      simp only [hold, hoverflow]
      exact ⟨_, rfl, _, rfl, .unshare _ rfl rfl ⟨hphase, rfl⟩ ⟨_, _, rfl⟩⟩
  | exclusive =>
      simp only [Holds, hphase] at hholds
      obtain ⟨hsome, updates, hwriter⟩ := hholds
      obtain ⟨data, hoverflow⟩ := Option.ne_none_iff_exists'.1 hsome
      have hlock : lockOf mapShard record = some (.slow (mapShard record.call.spanId)) := by
        simp [lockOf, hphase]
      cases updates with
      | nil =>
          simp only [hold, hoverflow, hwriter]
          exact ⟨_, rfl, _, rfl, .release (.slow _) (owner_writer store _ _) rfl hlock
            ⟨_, _, rfl⟩⟩
      | cons update updates =>
          simp only [hold, hoverflow, hwriter]
          exact ⟨_, rfl, _, rfl, .update (.slow _) _ update updates hwriter rfl rfl
            (owner_writer store _ _) rfl hlock rfl⟩

/-- An operation has the lock that it says it has. -/
theorem lock_owner (h : store.Consistent mapShard none) (hop : store.ops op = some record)
    {lock : Lock} (hlock : lockOf mapShard record = some lock) :
    ∃ holder, store.owner lock = some holder ∧ holder.op = op := by
  have hholds := h.locks op record (by simp) hop
  rcases hphase : record.phase with _ | _ | (⟨shard, index⟩ | _ | _) | _ <;>
    simp only [lockOf, hphase, reduceCtorEq, Option.some.injEq] at hlock
  · subst hlock
    simp only [Holds, hphase] at hholds
    obtain ⟨-, -, updates, hholder⟩ := hholds
    exact ⟨_, hholder, rfl⟩
  · subst hlock
    simp only [Holds, hphase] at hholds
    obtain ⟨-, updates, hwriter⟩ := hholds
    exact ⟨_, hwriter, rfl⟩

theorem lockOf_holding {lock : Lock} (hlock : lockOf mapShard record = some lock) :
    Holding record := by
  rcases hphase : record.phase with _ | _ | guard | _
  · simp [lockOf, hphase] at hlock
  · simp [lockOf, hphase] at hlock
  · exact ⟨guard, hphase⟩
  · simp [lockOf, hphase] at hlock

theorem Reads.lockOf {shard : Nat} (h : Reads mapShard record shard) :
    Store.lockOf mapShard record = none := by
  simp [Store.lockOf, h.1]

theorem Reads.holding {shard : Nat} (h : Reads mapShard record shard) : Holding record :=
  ⟨_, h.1⟩

theorem Returned.not_holding (h : Returned record) : ¬ Holding record := by
  obtain ⟨result, time, hphase⟩ := h
  rintro ⟨guard, hguard⟩
  rw [hphase] at hguard
  cases hguard

/-- The locks of the others stay with them, and those of the operation are as its next phase
says. -/
theorem Held.act (h : Held mapShard store) (hop : store.ops op = some record)
    (hacts : Acts mapShard store store' op record) : Held mapShard store' := by
  obtain ⟨phase, hops, hlocking⟩ := hacts
  generalize { record with phase := phase } = next at hops hlocking
  have hown : store'.ops op = some next := by rw [hops, Function.update_self]
  have hkept : ∀ lock holder, store.owner lock = some holder →
      (lockOf mapShard record = some lock → lockOf mapShard next = some lock) →
      ∃ record', store'.ops holder.op = some record' ∧ lockOf mapShard record' = some lock := by
    intro lock holder hholder hsame
    obtain ⟨record', hrecord, hlock⟩ := h.owner lock holder hholder
    by_cases hother : holder.op = op
    · rw [hother, hop, Option.some.injEq] at hrecord
      subst hrecord
      exact ⟨next, hother ▸ hown, hsame hlock⟩
    · exact ⟨record', by rw [hops, Function.update_of_ne hother, hrecord], hlock⟩
  have hreading : ∀ shard, ∀ other ∈ store.readers shard,
      (other = op → Reads mapShard record shard → Reads mapShard next shard) →
      ∃ record', store'.ops other = some record' ∧ Reads mapShard record' shard := by
    intro shard other hmem hsame
    obtain ⟨record', hrecord, hreads⟩ := h.readers shard other hmem
    by_cases hother : other = op
    · subst hother
      rw [hop, Option.some.injEq] at hrecord
      subst hrecord
      exact ⟨next, hown, hsame rfl hreads⟩
    · exact ⟨record', by rw [hops, Function.update_of_ne hother, hrecord], hreads⟩
  cases hlocking with
  | without howner hreaders hfree hnext =>
      refine ⟨fun lock holder hholder => ?_, fun shard other hmem => ?_, fun shard => ?_⟩
      · rw [howner] at hholder
        exact hkept lock holder hholder fun hlock => absurd (lockOf_holding hlock) hfree
      · rw [hreaders] at hmem
        exact hreading shard other hmem fun _ hreads => absurd hreads.holding hfree
      · rw [hreaders]
        exact h.nodup shard
  | acquire lock holder hnone howner hholder hupdates hreaders hfree hnext =>
      refine ⟨fun other known hknown => ?_, fun shard other hmem => ?_, fun shard => ?_⟩
      · rw [howner] at hknown
        by_cases hlock : other = lock
        · subst hlock
          rw [Function.update_self, Option.some.injEq] at hknown
          subst hknown
          exact ⟨next, hholder ▸ hown, hnext⟩
        · rw [Function.update_of_ne hlock] at hknown
          exact hkept other known hknown fun hlock => absurd (lockOf_holding hlock) hfree
      · rw [hreaders] at hmem
        exact hreading shard other hmem fun _ hreads => absurd hreads.holding hfree
      · rw [hreaders]
        exact h.nodup shard
  | update lock holder change updates hsome hholder hupdates howner hreaders hlock hnext =>
      refine ⟨fun other known hknown => ?_, fun shard other hmem => ?_, fun shard => ?_⟩
      · rw [howner] at hknown
        by_cases hother : other = lock
        · subst hother
          rw [Function.update_self, Option.some.injEq] at hknown
          subst hknown
          exact ⟨next, hholder ▸ hown, hnext⟩
        · rw [Function.update_of_ne hother] at hknown
          refine hkept other known hknown fun hsame => ?_
          rw [hlock, Option.some.injEq] at hsame
          exact absurd hsame.symm hother
      · rw [hreaders] at hmem
        refine hreading shard other hmem fun _ hreads => ?_
        rw [hreads.lockOf] at hlock
        cases hlock
      · rw [hreaders]
        exact h.nodup shard
  | release lock howner hreaders hlock hnext =>
      refine ⟨fun other known hknown => ?_, fun shard other hmem => ?_, fun shard => ?_⟩
      · rw [howner] at hknown
        by_cases hother : other = lock
        · subst hother
          rw [Function.update_self] at hknown
          cases hknown
        · rw [Function.update_of_ne hother] at hknown
          refine hkept other known hknown fun hsame => ?_
          rw [hlock, Option.some.injEq] at hsame
          exact absurd hsame.symm hother
      · rw [hreaders] at hmem
        refine hreading shard other hmem fun _ hreads => ?_
        rw [hreads.lockOf] at hlock
        cases hlock
      · rw [hreaders]
        exact h.nodup shard
  | share shard howner hreaders hfree hnext =>
      have hnew : op ∉ store.readers shard := by
        intro hmem
        obtain ⟨record', hrecord, hreads⟩ := h.readers shard op hmem
        rw [hop, Option.some.injEq] at hrecord
        subst hrecord
        exact hfree hreads.holding
      refine ⟨fun lock holder hholder => ?_, fun other reader hmem => ?_, fun other => ?_⟩
      · rw [howner] at hholder
        exact hkept lock holder hholder fun hlock => absurd (lockOf_holding hlock) hfree
      · have hold : reader ∈ store.readers other →
            ∃ record', store'.ops reader = some record' ∧ Reads mapShard record' other :=
          fun hmem => hreading other reader hmem fun _ hreads => absurd hreads.holding hfree
        rw [hreaders] at hmem
        by_cases hother : other = shard
        · subst hother
          rw [Function.update_self] at hmem
          rcases List.mem_cons.1 hmem with rfl | hmem
          · exact ⟨next, hown, hnext⟩
          · exact hold hmem
        · rw [Function.update_of_ne hother] at hmem
          exact hold hmem
      · rw [hreaders]
        by_cases hother : other = shard
        · subst hother
          rw [Function.update_self]
          exact List.nodup_cons.2 ⟨hnew, h.nodup other⟩
        · rw [Function.update_of_ne hother]
          exact h.nodup other
  | unshare shard howner hreaders hlock hnext =>
      refine ⟨fun lock holder hholder => ?_, fun other reader hmem => ?_, fun other => ?_⟩
      · rw [howner] at hholder
        refine hkept lock holder hholder fun hsome => ?_
        rw [hlock.lockOf] at hsome
        cases hsome
      · rw [hreaders] at hmem
        by_cases hother : other = shard
        · subst hother
          rw [Function.update_self] at hmem
          obtain ⟨hne, hmem⟩ := (h.nodup other).mem_erase_iff.1 hmem
          exact hreading other reader hmem fun heq => absurd heq hne
        · rw [Function.update_of_ne hother] at hmem
          exact hreading other reader hmem fun _ hreads =>
            absurd (hreads.2.symm.trans hlock.2) hother
      · rw [hreaders]
        by_cases hother : other = shard
        · subst hother
          rw [Function.update_self]
          exact (h.nodup other).erase op
        · rw [Function.update_of_ne hother]
          exact h.nodup other

/-! ## Steps that are left -/

theorem left_waiting (hfree : ¬ Holding record) (hreturned : ¬ Returned record) :
    record.call.updates.length + 2 ≤ left mapShard store record := by
  rcases hphase : record.phase with _ | _ | guard | ⟨result, time⟩
  · simp only [left, hphase]
    omega
  · simp only [left, hphase]
    exact le_rfl
  · exact absurd ⟨guard, hphase⟩ hfree
  · exact absurd ⟨result, time, hphase⟩ hreturned

theorem left_locked {lock : Lock} {holder : Holder Data}
    (hlock : lockOf mapShard record = some lock) (howner : store.owner lock = some holder) :
    left mapShard store record = holder.updates.length + 1 := by
  obtain ⟨guard, hphase⟩ := lockOf_holding hlock
  simp only [left, hphase, hlock, Option.bind_some, howner, Option.map_some, Option.getD_some]

theorem left_reading {shard : Nat} (h : Reads mapShard record shard) :
    left mapShard store record = 1 := by
  simp only [left, h.1, h.lockOf, Option.bind_none, Option.map_none, Option.getD_none]

theorem left_returned (h : Returned record) : left mapShard store record = 0 := by
  obtain ⟨result, time, hphase⟩ := h
  simp only [left, hphase]

/-- Every step of an operation leaves it fewer to make. -/
theorem left_act (h : store.Consistent mapShard none) (hop : store.ops op = some record)
    (hreturned : ¬ Returned record) {next : Op Data}
    (hcall : next.call = record.call) (hlocking : Locking mapShard store store' op record next) :
    left mapShard store' next < left mapShard store record := by
  cases hlocking with
  | without howner hreaders hfree hnext =>
      have hmany : record.call.updates.length + 2 ≤ left mapShard store record :=
        left_waiting hfree hreturned
      rcases hnext with ⟨hphase, hmissed⟩ | hdone
      · simp only [left, hphase, hmissed, hcall]
        omega
      · rw [left_returned hdone]
        omega
  | acquire lock holder hnone howner hholder hupdates hreaders hfree hnext =>
      have hmany : record.call.updates.length + 2 ≤ left mapShard store record :=
        left_waiting hfree hreturned
      rw [left_locked hnext (by rw [howner, Function.update_self]), hupdates]
      omega
  | update lock holder change updates hsome hholder hupdates howner hreaders hlock hnext =>
      rw [left_locked hnext (by rw [howner, Function.update_self]), left_locked hlock hsome,
        hupdates, List.length_cons]
      exact Nat.lt_succ_self _
  | release lock howner hreaders hlock hnext =>
      obtain ⟨holder, hholder, -⟩ := lock_owner h hop hlock
      rw [left_returned hnext, left_locked hlock hholder]
      omega
  | share shard howner hreaders hfree hnext =>
      have hmany : record.call.updates.length + 2 ≤ left mapShard store record :=
        left_waiting hfree hreturned
      rw [left_reading hnext]
      omega
  | unshare shard howner hreaders hlock hnext =>
      rw [left_returned hnext, left_reading hlock]
      omega

/-- The steps of the others take none away and add none. -/
theorem left_other (h : store.Consistent mapShard none) (hop : store.ops op = some record)
    {next : Op Data} (hlocking : Locking mapShard store store' op record next) {other : Nat}
    {record' : Op Data} (hother : store.ops other = some record') (hne : other ≠ op) :
    left mapShard store' record' = left mapShard store record' := by
  have hsame : (lockOf mapShard record').bind store'.owner =
      (lockOf mapShard record').bind store.owner → left mapShard store' record' =
        left mapShard store record' := by
    intro hlocks
    rcases hphase : record'.phase with _ | _ | guard | ⟨result, time⟩ <;>
      simp only [left, hphase, hlocks]
  apply hsame
  rcases hlock : lockOf mapShard record' with _ | lock
  · rfl
  · obtain ⟨holder, hholder, hown⟩ := lock_owner h hother hlock
    -- the lock of the other is not the one that changes
    have hapart : ∀ changed value, store'.owner = Function.update store.owner changed value →
        (∀ known, store.owner changed = some known → known.op = op) →
        store'.owner lock = store.owner lock := by
      intro changed value howner hknown
      rw [howner, Function.update_of_ne]
      rintro rfl
      exact hne (hown.symm.trans (hknown holder hholder))
    rw [Option.bind_some, Option.bind_some]
    cases hlocking with
    | without howner | share _ howner | unshare _ howner => rw [howner]
    | acquire changed known hnone howner =>
        refine hapart changed _ howner fun known hsome => ?_
        rw [hnone] at hsome
        cases hsome
    | update changed known _ _ hsome hknown _ howner =>
        refine hapart changed _ howner fun shown hshown => ?_
        rw [hsome, Option.some.injEq] at hshown
        rw [← hshown, hknown]
    | release changed howner _ hchanged =>
        refine hapart changed _ howner fun shown hshown => ?_
        obtain ⟨known, hknown, hop'⟩ := lock_owner h hop hchanged
        rw [hknown, Option.some.injEq] at hshown
        rw [← hshown, hop']

/-! ## Waiting -/

/-- The operation that has a guard keeps the other one from its next step. -/
def Blocks (mapShard : SpanId → Nat) (holding record : Op Data) : Prop :=
  match record.phase with
  | .called => lockOf mapShard holding = some (.fast (activeShard record.call.spanId))
  | .missed => lockOf mapShard holding = some (.slow (mapShard record.call.spanId)) ∨
      Reads mapShard holding (mapShard record.call.spanId)
  | _ => False

theorem first_isSome (h : (store.active (activeShard record.call.spanId)).holder = none) :
    (store.first op record).isSome = true := by
  obtain ⟨call, calledAt, phase⟩ := record
  cases call with
  | insert spanId data =>
      simp only [Call.spanId] at h
      simp only [first, Call.spanId, h]
      split
      · split <;> rfl
      · rfl
  | get spanId | getMut spanId | take spanId =>
      simp only [Call.spanId] at h
      simp only [first, Call.spanId, h]
      split <;> rfl

theorem second_isSome (hwriter : store.writer (mapShard record.call.spanId) = none)
    (hreaders : store.readers (mapShard record.call.spanId) = []) :
    (store.second mapShard op record).isSome = true := by
  obtain ⟨call, calledAt, phase⟩ := record
  cases call with
  | insert spanId data | get spanId | getMut spanId | take spanId =>
      simp only [Call.spanId] at hwriter hreaders
      simp only [second, Call.spanId, hwriter, hreaders, ne_eq, not_true_eq_false, if_false]
      split <;> rfl

theorem holding_isSome (h : store.Consistent mapShard none) (hop : store.ops op = some record)
    (hholding : Holding record) : (store.step mapShard (.act op)).isSome = true := by
  obtain ⟨guard, hphase⟩ := hholding
  obtain ⟨next, hhold, -⟩ := hold_acts h hop hphase
  simp [step, hop, hphase, hhold]

/-- An operation that has not returned makes its next step, unless it waits for one that has
a guard. -/
theorem acts_or_blocked (h : store.Consistent mapShard none) (hheld : Held mapShard store)
    (hop : store.ops op = some record) (hreturned : ¬ Returned record) :
    (store.step mapShard (.act op)).isSome = true ∨ ∃ other holding,
      store.ops other = some holding ∧ Holding holding ∧ Blocks mapShard holding record := by
  rcases hphase : record.phase with _ | _ | guard | ⟨result, time⟩
  · cases hholder : store.owner (.fast (activeShard record.call.spanId)) with
    | none =>
        refine .inl ?_
        simp only [step, hop, hphase]
        exact first_isSome hholder
    | some holder =>
        obtain ⟨holding, hholding, hlock⟩ := hheld.owner _ holder hholder
        refine .inr ⟨holder.op, holding, hholding, lockOf_holding hlock, ?_⟩
        simp only [Blocks, hphase]
        exact hlock
  · cases hholder : store.owner (.slow (mapShard record.call.spanId)) with
    | none =>
        cases hreaders : store.readers (mapShard record.call.spanId) with
        | nil =>
            refine .inl ?_
            simp only [step, hop, hphase]
            exact second_isSome hholder hreaders
        | cons reader readers =>
            obtain ⟨holding, hholding, hreads⟩ :=
              hheld.readers _ reader (by rw [hreaders]; exact List.mem_cons_self)
            refine .inr ⟨reader, holding, hholding, hreads.holding, ?_⟩
            simp only [Blocks, hphase]
            exact .inr hreads
    | some holder =>
        obtain ⟨holding, hholding, hlock⟩ := hheld.owner _ holder hholder
        refine .inr ⟨holder.op, holding, hholding, lockOf_holding hlock, ?_⟩
        simp only [Blocks, hphase]
        exact .inl hlock
  · exact .inl (holding_isSome h hop ⟨guard, hphase⟩)
  · exact absurd ⟨result, time, hphase⟩ hreturned

theorem act_acts (h : store.Consistent mapShard none) (hop : store.ops op = some record)
    (hstep : store.step mapShard (.act op) = some store') :
    ¬ Returned record ∧ Acts mapShard store store' op record := by
  have hintact := (act_steps h hop hstep).consistent.intact
  simp only [step, hop] at hstep
  rcases hphase : record.phase with _ | _ | guard | ⟨result, time⟩ <;>
    simp only [hphase] at hstep
  · refine ⟨?_, first_acts hphase hstep hintact⟩
    rintro ⟨result, time, hreturned⟩
    rw [hphase] at hreturned
    cases hreturned
  · refine ⟨?_, second_acts hphase hstep hintact⟩
    rintro ⟨result, time, hreturned⟩
    rw [hphase] at hreturned
    cases hreturned
  · obtain ⟨next, hhold, hacts⟩ := hold_acts h hop hphase
    rw [hhold, Option.some.injEq] at hstep
    subst hstep
    exact ⟨fun hreturned => hreturned.not_holding ⟨guard, hphase⟩, hacts⟩
  · cases hstep

end Steps

section Logs

variable {Data : Type} {mapShard : SpanId → Nat} {store store' : Store Data} {log : Log Data}

/-! ## Steps of a run -/

/-- How many of the steps are those of an operation. -/
def stepsOf (op : Nat) (labels : List (Label Data)) : Nat :=
  labels.countP fun label =>
    match label with
    | .act other => other == op
    | .call _ => false

/-- What an operation has done of its steps, and what it has left. -/
def Paced (mapShard : SpanId → Nat) (store : Store Data) (done : Nat → Nat) : Prop :=
  ∀ op, match store.ops op with
    | none => done op = 0
    | some record => done op + left mapShard store record ≤ record.call.updates.length + 3

theorem Paced.call {done : Nat → Nat} {call : Call Data} (h : Paced mapShard store done)
    (hconsistent : store.Consistent mapShard none)
    (hstep : store.step mapShard (.call call) = some store') : Paced mapShard store' done := by
  simp only [step] at hstep
  split at hstep
  · cases hstep
    intro op
    have hbefore := h op
    by_cases hnew : op = store.nextOp
    · subst hnew
      rw [hconsistent.fresh _ le_rfl] at hbefore
      have hnone : done store.nextOp = 0 := hbefore
      simp only [Function.update_self, left, hnone]
      omega
    · simp only [Function.update_of_ne hnew]
      exact hbefore
  · cases hstep

theorem Paced.act {done : Nat → Nat} {op : Nat} (h : Paced mapShard store done)
    (hconsistent : store.Consistent mapShard none)
    (hstep : store.step mapShard (.act op) = some store') :
    Paced mapShard store' (Function.update done op (done op + 1)) := by
  cases hop : store.ops op with
  | none => simp [step, hop] at hstep
  | some record =>
      obtain ⟨hreturned, phase, hops, hlocking⟩ := act_acts hconsistent hop hstep
      intro other
      by_cases hother : other = op
      · subst hother
        have hbefore := h other
        simp only [hop] at hbefore
        have hless : left mapShard store' { record with phase := phase } <
            left mapShard store record := left_act hconsistent hop hreturned rfl hlocking
        simp only [hops, Function.update_self]
        omega
      · have hbefore := h other
        simp only [hops, Function.update_of_ne hother]
        cases hrecord : store.ops other with
        | none => simpa only [hrecord] using hbefore
        | some record' =>
            simp only [hrecord] at hbefore ⊢
            rw [left_other hconsistent hop hlocking hrecord hother]
            exact hbefore

theorem held_call {call : Call Data} (h : Held mapShard store)
    (hconsistent : store.Consistent mapShard none)
    (hstep : store.step mapShard (.call call) = some store') : Held mapShard store' := by
  simp only [step] at hstep
  split at hstep
  · cases hstep
    have hkept : ∀ op record, store.ops op = some record →
        Function.update store.ops store.nextOp (some ⟨call, store.clock, .called⟩) op =
          some record := by
      intro op record hop
      rw [Function.update_of_ne, hop]
      rintro rfl
      rw [hconsistent.fresh _ le_rfl] at hop
      cases hop
    refine ⟨fun lock holder hholder => ?_, fun shard op hmem => ?_, h.nodup⟩
    · obtain ⟨record, hop, hlock⟩ := h.owner lock holder hholder
      exact ⟨record, hkept _ _ hop, hlock⟩
    · obtain ⟨record, hop, hreads⟩ := h.readers shard op hmem
      exact ⟨record, hkept _ _ hop, hreads⟩
  · cases hstep

theorem held_new : Held mapShard (new : Store Data) where
  owner := by
    intro lock holder hholder
    cases lock <;> cases hholder
  readers := fun _ _ hmem => by cases hmem
  nodup := fun _ => .nil

/-- The run lemma: the locks belong to those who use them, and every step is counted. -/
theorem run_paced {labels : List (Label Data)} {done : Nat → Nat}
    (hconsistent : store.Consistent mapShard none) (hheld : Held mapShard store)
    (hpaced : Paced mapShard store done) (hrun : run mapShard labels store = some store') :
    Held mapShard store' ∧ Paced mapShard store' fun op => done op + stepsOf op labels := by
  induction labels generalizing store done with
  | nil =>
      obtain rfl : store = store' := Option.some.inj hrun
      exact ⟨hheld, hpaced⟩
  | cons label labels ih =>
      rw [run, List.foldlM_cons, Option.bind_eq_bind, Option.bind_eq_some_iff] at hrun
      obtain ⟨next, hstep, hrest⟩ := hrun
      cases label with
      | call call =>
          obtain ⟨hheld', hpaced'⟩ := ih (hconsistent.call hstep)
            (held_call hheld hconsistent hstep) (hpaced.call hconsistent hstep) hrest
          refine ⟨hheld', ?_⟩
          simpa [stepsOf] using hpaced'
      | act op =>
          cases hop : store.ops op with
          | none => simp [step, hop] at hstep
          | some record =>
              obtain ⟨-, hacts⟩ := act_acts hconsistent hop hstep
              obtain ⟨hheld', hpaced'⟩ := ih (act_steps hconsistent hop hstep).consistent
                (hheld.act hop hacts) (hpaced.act hconsistent hstep) hrest
              refine ⟨hheld', ?_⟩
              have hcount : (fun other => Function.update done op (done op + 1) other +
                  stepsOf other labels) =
                fun other => done other + stepsOf other (.act op :: labels) := by
                funext other
                by_cases hother : other = op
                · subst hother
                  simp [stepsOf]
                  omega
                · simp [stepsOf, hother, Ne.symm hother]
              rwa [hcount] at hpaced'

/-! ## Removals -/

/-- Of several removals of an id, at most one between two insertions has the data. -/
def TakenOnce (log : Log Data) : Prop :=
  ∀ before one between two behind spanId first second,
    log = before ++ one :: (between ++ two :: behind) →
    one.call = .take spanId → one.result = .found (some first) →
    two.call = .take spanId → two.result = .found (some second) →
    ∃ entry ∈ between, ∃ data, entry.call = .insert spanId data

/-- Only an insertion brings an id into the map. -/
theorem step_stays_absent {spanId : SpanId} {map : SpanId → Option Data} {call : Call Data}
    (hnone : map spanId = none) (hinsert : ∀ data, call ≠ .insert spanId data) :
    ((mapSpec Data).step map call).2 spanId = none := by
  rcases call with ⟨other, data⟩ | other | ⟨other, updates⟩ | other
  · have hne : spanId ≠ other := by
      rintro rfl
      exact hinsert data rfl
    simp [mapSpec, hne, hnone]
  · exact hnone
  all_goals
    by_cases hsame : spanId = other
    · subst hsame
      simp [mapSpec, hnone]
    · simp [mapSpec, hsame, hnone]

theorem after_absent {spanId : SpanId} {map : SpanId → Option Data} (hnone : map spanId = none)
    (hinsert : ∀ entry ∈ log, ∀ data, entry.call ≠ .insert spanId data) :
    Linearizability.after (mapSpec Data) map log spanId = none := by
  induction log generalizing map with
  | nil => exact hnone
  | cons entry log ih =>
      exact ih (step_stays_absent hnone (hinsert entry List.mem_cons_self)) fun other hother =>
        hinsert other (List.mem_cons_of_mem _ hother)

theorem takenOnce_of_legal
    (h : Linearizability.Legal (mapSpec Data) (fun _ => none) log) : TakenOnce log := by
  rintro before one between two behind spanId first second rfl hone - htwo hresult
  by_contra hnot
  rw [Linearizability.legal_append] at h
  obtain ⟨-, -, hbehind⟩ := h
  rw [Linearizability.legal_append] at hbehind
  obtain ⟨-, htake, -⟩ := hbehind
  rw [hone, htwo, hresult] at htake
  -- Nothing but an insertion can bring the entry back.
  have hgone : Linearizability.after (mapSpec Data) ((mapSpec Data).step
      (Linearizability.after (mapSpec Data) (fun _ => none) before) (.take spanId)).2
        between spanId = none := by
    apply after_absent (by simp [mapSpec])
    intro entry hentry data hcall
    exact hnot ⟨entry, hentry, data, hcall⟩
  simp only [mapSpec, Result.found.injEq] at htake hgone
  rw [hgone] at htake
  cases htake

def takes (spanId : SpanId) : Call Data → Bool
  | .take other => other == spanId
  | _ => false

/-- What the removals of an id got. -/
def removals (spanId : SpanId) (log : Log Data) : List (Result Data) :=
  (log.filter fun entry => takes spanId entry.call).map Entry.result

/-- Of the removals of an id after an insertion, up to the next one, the first has the data,
and the others find nothing. -/
def TakenFirst (log : Log Data) : Prop :=
  ∀ before insertion stretch behind spanId data,
    log = before ++ insertion :: (stretch ++ behind) → insertion.call = .insert spanId data →
    (∀ entry ∈ stretch, ∀ data, entry.call ≠ .insert spanId data) →
    removals spanId stretch = [] ∨ ∃ last rest,
      removals spanId stretch = .found (some last) :: List.replicate rest (.found none)

/-- Only a removal takes an id out of the map. -/
theorem step_stays_present {spanId : SpanId} {map : SpanId → Option Data} {call : Call Data}
    (hsome : (map spanId).isSome = true) (htake : takes spanId call = false) :
    (((mapSpec Data).step map call).2 spanId).isSome = true := by
  rcases call with ⟨other, data⟩ | other | ⟨other, updates⟩ | other
  · by_cases hsame : spanId = other
    · subst hsame
      simp [mapSpec]
    · simpa [mapSpec, hsame] using hsome
  · exact hsome
  · by_cases hsame : spanId = other
    · subst hsame
      simpa [mapSpec] using hsome
    · simpa [mapSpec, hsame] using hsome
  · have hne : spanId ≠ other := by
      rintro rfl
      simp [takes] at htake
    simpa [mapSpec, hne] using hsome

theorem takes_call {spanId : SpanId} {call : Call Data} (h : takes spanId call = true) :
    call = .take spanId := by
  cases call with
  | take other =>
      simp only [takes, beq_iff_eq] at h
      rw [h]
  | _ => cases h

theorem removals_cons_take {spanId : SpanId} {entry : Entry (Call Data) (Result Data)}
    (h : takes spanId entry.call = true) :
    removals spanId (entry :: log) = entry.result :: removals spanId log := by
  simp [removals, h]

theorem removals_cons_other {spanId : SpanId} {entry : Entry (Call Data) (Result Data)}
    (h : takes spanId entry.call = false) :
    removals spanId (entry :: log) = removals spanId log := by
  simp [removals, h]

theorem removals_absent {spanId : SpanId} {map : SpanId → Option Data}
    (hlegal : Linearizability.Legal (mapSpec Data) map log) (hnone : map spanId = none)
    (hinsert : ∀ entry ∈ log, ∀ data, entry.call ≠ .insert spanId data) :
    ∃ rest, removals spanId log = List.replicate rest (.found none) := by
  induction log generalizing map with
  | nil => exact ⟨0, rfl⟩
  | cons entry log ih =>
      obtain ⟨rest, hrest⟩ := ih hlegal.2
        (step_stays_absent hnone (hinsert entry List.mem_cons_self)) fun other hother =>
          hinsert other (List.mem_cons_of_mem _ hother)
      cases htakes : takes spanId entry.call with
      | false => exact ⟨rest, by rw [removals_cons_other htakes, hrest]⟩
      | true =>
          have hresult : entry.result = .found none := by
            rw [← hlegal.1, takes_call htakes, ← hnone]
            rfl
          exact ⟨rest + 1, by rw [removals_cons_take htakes, hresult, hrest]; rfl⟩

theorem removals_present {spanId : SpanId} {map : SpanId → Option Data}
    (hlegal : Linearizability.Legal (mapSpec Data) map log) (hsome : (map spanId).isSome = true)
    (hinsert : ∀ entry ∈ log, ∀ data, entry.call ≠ .insert spanId data) :
    removals spanId log = [] ∨ ∃ last rest,
      removals spanId log = .found (some last) :: List.replicate rest (.found none) := by
  induction log generalizing map with
  | nil => exact .inl rfl
  | cons entry log ih =>
      have hlater : ∀ other ∈ log, ∀ data, other.call ≠ .insert spanId data :=
        fun other hother => hinsert other (List.mem_cons_of_mem _ hother)
      cases htakes : takes spanId entry.call with
      | false =>
          rw [removals_cons_other htakes]
          exact ih hlegal.2 (step_stays_present hsome htakes) hlater
      | true =>
          have hcall := takes_call htakes
          obtain ⟨last, hlast⟩ := Option.isSome_iff_exists.1 hsome
          have hresult : entry.result = .found (some last) := by
            rw [← hlegal.1, hcall, ← hlast]
            rfl
          have hgone : ((mapSpec Data).step map entry.call).2 spanId = none := by
            simp [hcall, mapSpec]
          obtain ⟨rest, hrest⟩ := removals_absent hlegal.2 hgone hlater
          exact .inr ⟨last, rest, by rw [removals_cons_take htakes, hresult, hrest]⟩

theorem takenFirst_of_legal
    (h : Linearizability.Legal (mapSpec Data) (fun _ => none) log) : TakenFirst log := by
  rintro before insertion stretch behind spanId data rfl hcall hinsert
  rw [Linearizability.legal_append] at h
  obtain ⟨-, -, hbehind⟩ := h
  rw [Linearizability.legal_append] at hbehind
  refine removals_present hbehind.1 ?_ hinsert
  simp [hcall, mapSpec]

theorem content_isSome (store : Store Data) (spanId : SpanId) :
    (store.content mapShard spanId).isSome = (store.stored spanId).isSome := by
  rw [stored_eq]
  simp [content, Option.isSome_or]

/-! ## Runs -/

theorem left_pos {record : Op Data} (hreturned : ¬ Returned record) :
    0 < left mapShard store record := by
  rcases hphase : record.phase with _ | _ | guard | ⟨result, time⟩
  · simp only [left, hphase]
    omega
  · simp only [left, hphase]
    omega
  · simp only [left, hphase]
    omega
  · exact absurd ⟨result, time, hphase⟩ hreturned

/-- An operation that has not returned has made fewer steps than it may, and can make the
next, unless one that can go on keeps a guard that it waits for. -/
def GoesOn (mapShard : SpanId → Nat) (labels : List (Label Data)) (store : Store Data) : Prop :=
  ∀ op record, store.ops op = some record → ¬ Returned record →
    stepsOf op labels < record.call.updates.length + 3 ∧
      ((store.step mapShard (.act op)).isSome = true ∨ ∃ other holding,
        store.ops other = some holding ∧ Blocks mapShard holding record ∧
          (store.step mapShard (.act other)).isSome = true)

theorem run_goesOn {labels : List (Label Data)}
    (hrun : run mapShard labels (new : Store Data) = some store) :
    GoesOn mapShard labels store := by
  have hconsistent := (run_linked new_consistent new_linked hrun).1
  have hrun' : Held mapShard store ∧ Paced mapShard store fun op => 0 + stepsOf op labels :=
    run_paced new_consistent held_new (fun _ => rfl) hrun
  obtain ⟨hheld, hpaced⟩ := hrun'
  intro op record hop hreturned
  constructor
  · have hdone := hpaced op
    have hpos : 0 < left mapShard store record := left_pos hreturned
    simp only [hop] at hdone
    omega
  · refine (acts_or_blocked hconsistent hheld hop hreturned).imp_right ?_
    rintro ⟨other, holding, hother, hholding, hblocks⟩
    exact ⟨other, holding, hother, hblocks, holding_isSome hconsistent hother hholding⟩

/-- Every run of the store is a run of the atomic map, in which nobody waits for ever. -/
theorem run_linearizes {labels : List (Label Data)}
    (hrun : run mapShard labels (new : Store Data) = some store) :
    ∃ log, Linearizes (mapSpec Data) (fun _ => none) store.history log ∧ TakenOnce log ∧
      TakenFirst log ∧ (∀ spanId, (mapAfter log spanId).isSome = (store.stored spanId).isSome) ∧
      store.OnePlace ∧ store.failures = [] ∧ GoesOn mapShard labels store := by
  obtain ⟨hconsistent, log, hlinked⟩ := run_linked new_consistent new_linked hrun
  refine ⟨log, hlinked.linearizes, takenOnce_of_legal hlinked.legal,
    takenFirst_of_legal hlinked.legal, ?_, hconsistent.onePlace, hconsistent.intact,
    run_goesOn hrun⟩
  intro spanId
  rw [hlinked.state, content_isSome]

end Logs

def sampleShard (spanId : SpanId) : Nat := spanId.toNat % 4

/-- Five entries of one shard, so that the last one spills; then a slot is freed, and two
removals of the entry that spilled wait for its update. At the end a removal waits for a
look-up. -/
def sampleLabels : List (Label Nat) :=
  [.call (.insert 1 10), .act 0, .call (.insert 5 50), .act 1, .call (.insert 18 180), .act 2,
    .call (.insert 22 220), .act 3, .call (.insert 25 250), .act 4, .act 4,
    .call (.take 1), .act 5, .call (.getMut 25 [fun data => data + 1]), .call (.take 25),
    .call (.take 25), .act 6, .act 7, .act 8, .act 6, .act 6, .act 6, .act 8, .act 7,
    .call (.get 5), .act 9, .call (.take 5)]

def sampleRun : Option (Store Nat) := run sampleShard sampleLabels new

/-- What is asked of the run. -/
def SampleOk (store : Store Nat) : Prop :=
  (List.range 11).map (fun op => (store.history.returned op).map Prod.fst) =
    [some .inserted, some .inserted, some .inserted, some .inserted, some .inserted,
      some (.found (some 10)), some (.found (some 251)), some (.found none),
      some (.found (some 251)), none, none] ∧
    (store.ops 10).isSome = true ∧ (store.step sampleShard (.act 10)).isSome = false

instance (store : Store Nat) : Decidable (SampleOk store) := by
  unfold SampleOk
  infer_instance

theorem sampleRun_ok : (sampleRun.map fun store => decide (SampleOk store)) = some true := by
  decide +kernel

theorem run_linearizes_sample : ∃ store, sampleRun = some store ∧ SampleOk store ∧
    (∃ log, Linearizes (mapSpec Nat) (fun _ => none) store.history log ∧ TakenOnce log ∧
      TakenFirst log ∧ (∀ spanId, (mapAfter log spanId).isSome = (store.stored spanId).isSome) ∧
      store.OnePlace ∧ store.failures = []) ∧
    stepsOf 10 sampleLabels = 0 ∧ ∃ record other holding, store.ops 10 = some record ∧
      store.ops other = some holding ∧ Blocks sampleShard holding record ∧
        (store.step sampleShard (.act other)).isSome = true := by
  obtain ⟨store, hrun, hok⟩ := Option.map_eq_some_iff.1 sampleRun_ok
  rw [decide_eq_true_eq] at hok
  obtain ⟨log, hlinearizes, honce, hfirst, hstored, hplace, hintact, hgoes⟩ := run_linearizes hrun
  refine ⟨store, hrun, hok, ⟨log, hlinearizes, honce, hfirst, hstored, hplace, hintact⟩, rfl, ?_⟩
  obtain ⟨hresults, hcalled, hblocked⟩ := hok
  obtain ⟨record, hop⟩ := Option.isSome_iff_exists.1 hcalled
  have hunreturned : ¬ Returned record := by
    rintro ⟨result, time, hphase⟩
    have hlast := congrArg (fun results => results[10]?) hresults
    obtain ⟨call, calledAt, phase⟩ := record
    obtain rfl : phase = .returned result time := hphase
    simp [history, hop] at hlast
  obtain ⟨other, holding, hother, hblocks, hacts⟩ :=
    (hgoes 10 record hop hunreturned).2.resolve_left (by rw [hblocked]; exact Bool.false_ne_true)
  exact ⟨record, other, holding, hop, hother, hblocks, hacts⟩

end Store

end TracingPerfetto.SpanStore
