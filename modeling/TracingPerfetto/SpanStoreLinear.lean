import TracingPerfetto.SpanStoreTiers
import TracingPerfetto.Linearizability

/-!
The span store is a linearizable map. An insertion takes effect when its entry gets its
place, a removal when the entry leaves, and a look-up that finds its entry when it gets
the lock, with all its updates. A look-up that misses both tiers takes effect at a point
at which neither had the entry.
-/

namespace TracingPerfetto.SpanStore

open Linearizability (Spec Entry History Linearizes)

/-- The atomic map. -/
def mapSpec (Data : Type) : Spec (Call Data) (Result Data) (SpanId → Option Data) where
  step := fun map call =>
    match call with
    | .insert spanId data => (.inserted, Function.update map spanId (some data))
    | .get spanId => (.found (map spanId), map)
    | .getMut spanId updates =>
        let data := (map spanId).map fun data =>
          updates.foldl (fun data update => update data) data
        (.found data, Function.update map spanId data)
    | .take spanId => (.found (map spanId), Function.update map spanId none)

namespace Store

section Moves

variable {Data : Type} (mapShard : SpanId → Nat)

def Inserts (call : Call Data) : Prop :=
  ∃ spanId data, call = .insert spanId data

def Holding (record : Op Data) : Prop :=
  ∃ guard, record.phase = .holding guard

/-- What one step of an operation can do. -/
inductive Move (store store' : Store Data) (op : Nat) (record : Op Data) : Prop where
  | miss (hphase : record.phase = .called)
      (habsent : ¬ Inserts record.call → store.fast record.call.spanId = none)
      (hops : store'.ops =
        Function.update store.ops op (some { record with phase := .missed }))
      (hcontent : store'.content mapShard = store.content mapShard)
      (hoverflow : store'.overflow = store.overflow)
  | absent (hphase : record.phase = .missed) (hcall : ¬ Inserts record.call)
      (habsent : store.overflow record.call.spanId = none)
      (hops : store'.ops = Function.update store.ops op
        (some { record with phase := .returned (.found none) store.clock }))
      (hcontent : store'.content mapShard = store.content mapShard)
      (hoverflow : store'.overflow = store.overflow)
  | commit (phase : Phase Data) (result : Result Data)
      (hphase : record.phase = .called ∨ record.phase = .missed)
      (hops : store'.ops = Function.update store.ops op (some { record with phase := phase }))
      (hstep : (mapSpec Data).step (store.content mapShard) record.call =
        (result, store'.content mapShard))
      (hresult : (∃ guard, phase = .holding guard ∧
          result = .found (store'.content mapShard record.call.spanId)) ∨
        phase = .returned result store.clock)
      (hoverflow : ∀ spanId, store.overflow spanId ≠ none →
        store'.overflow spanId ≠ none ∨ store'.content mapShard spanId = none)
      (hframe : ∀ other record', other ≠ op → store.ops other = some record' →
        Holding record' → store'.content mapShard record'.call.spanId =
          store.content mapShard record'.call.spanId)
  | use (phase : Phase Data) (hphase : Holding record)
      (hops : store'.ops = Function.update store.ops op (some { record with phase := phase }))
      (hcontent : store'.content mapShard = store.content mapShard)
      (hresult : (∃ guard, phase = .holding guard) ∨
        phase = .returned (.found (store.content mapShard record.call.spanId)) store.clock)
      (hoverflow : ∀ spanId, store.overflow spanId ≠ none → store'.overflow spanId ≠ none)

end Moves

section Steps

variable {Data : Type} {mapShard : SpanId → Nat} {store store' : Store Data} {op : Nat}
  {record : Op Data}

theorem fast_of_slot (h : store.Consistent mapShard none) {spanId : SpanId}
    {index : Fin fastSlots} {entry : ActiveEntry Data}
    (hslot : (store.active (activeShard spanId)).slots index = some entry)
    (hspan : entry.spanId = spanId) : store.fast spanId = some entry.data :=
  (ActiveSlots.lookup_some_iff (h.distinct _)).2 ⟨index, entry, hslot, hspan, rfl⟩

theorem freeFast_of_unlocked (h : store.Consistent mapShard none) {shard : Nat}
    (hholder : (store.active shard).holder = none) : store.FreeFast op shard := by
  intro other record index _ hother hphase
  have hholds := h.locks other record (by simp) hother
  simp only [Holds, hphase] at hholds
  obtain ⟨-, -, updates, hlocked⟩ := hholds
  simp [hholder] at hlocked

theorem freeFast_of_owner (h : store.Consistent mapShard none) {shard : Nat} {spanId : SpanId}
    {updates : List (Data → Data)}
    (hholder : (store.active shard).holder = some ⟨op, spanId, updates⟩) :
    store.FreeFast op shard := by
  intro other record index hne hother hphase
  have hholds := h.locks other record (by simp) hother
  simp only [Holds, hphase] at hholds
  obtain ⟨-, -, updates', hlocked⟩ := hholds
  rw [hholder, Option.some.injEq, Holder.mk.injEq] at hlocked
  exact hne hlocked.1.symm

/-- While the entry of an id is in the unlocked fast tier, no other operation holds it. -/
theorem unheld_fast (h : store.Consistent mapShard none) {spanId : SpanId}
    (hfree : store.FreeFast op (activeShard spanId)) (hoverflow : store.overflow spanId = none) :
    ∀ other record', other ≠ op → store.ops other = some record' → Holding record' →
      record'.call.spanId ≠ spanId := by
  rintro other record' hne hother ⟨guard, hphase⟩ rfl
  have hholds := h.locks other record' (by simp) hother
  rcases guard with ⟨shard, index⟩ | _ | _ <;> simp only [Holds, hphase] at hholds
  · obtain ⟨rfl, -, -⟩ := hholds
    exact hfree other record' index hne hother hphase
  · exact hholds.2 hoverflow
  · exact hholds.1 hoverflow

/-- While the map's shard of an id is unlocked, no operation holds the entry there. -/
theorem unheld_slow (h : store.Consistent mapShard none) {spanId : SpanId}
    (hfast : store.fast spanId = none) (hwriter : store.writer (mapShard spanId) = none)
    (hreaders : store.readers (mapShard spanId) = []) :
    ∀ other record', other ≠ op → store.ops other = some record' → Holding record' →
      record'.call.spanId ≠ spanId := by
  rintro other record' - hother ⟨guard, hphase⟩ rfl
  have hholds := h.locks other record' (by simp) hother
  rcases guard with ⟨shard, index⟩ | _ | _ <;> simp only [Holds, hphase] at hholds
  · obtain ⟨rfl, ⟨entry, hslot, hspan⟩, -⟩ := hholds
    simp [fast_of_slot h hslot hspan] at hfast
  · simp [hreaders] at hholds
  · simp [hwriter] at hholds

theorem freeSlow_of_unlocked (h : store.Consistent mapShard none) {spanId : SpanId}
    {value : Option Data} {ids : List Nat} (hwriter : store.writer (mapShard spanId) = none)
    (hreaders : store.readers (mapShard spanId) = []) :
    FreeSlow mapShard store op spanId value ids := by
  intro other record _ hother hshard
  have hholds := h.locks other record (by simp) hother
  constructor
  · intro hphase
    simp [Holds, hphase, hshard, hwriter] at hholds
  · intro hphase
    simp [Holds, hphase, hshard, hreaders] at hholds

theorem content_fast {spanId : SpanId} {data : Data} (hfast : store.fast spanId = some data) :
    store.content mapShard spanId =
      some (settle (store.active (activeShard spanId)).holder spanId data) := by
  simp [content, hfast]

theorem content_slow {spanId : SpanId} (hfast : store.fast spanId = none) :
    store.content mapShard spanId =
      (store.overflow spanId).map (settle (store.writer (mapShard spanId)) spanId) := by
  simp [content, hfast]

/-- What a step comes to: the invariant, the clock, and the move. -/
structure Steps (mapShard : SpanId → Nat) (store store' : Store Data) (op : Nat)
    (record : Op Data) : Prop where
  consistent : store'.Consistent mapShard none
  clock : store'.clock = store.clock + 1
  move : Move mapShard store store' op record

theorem holds_of_free {phase : Phase Data} (h : ∀ guard, phase ≠ .holding guard) :
    store.Holds mapShard op { record with phase := phase } := by
  rcases hphase : phase with _ | _ | guard | _
  · trivial
  · trivial
  · exact absurd hphase (h guard)
  · trivial

theorem not_pending_of_done {phase : Phase Data} (hcalled : phase ≠ .called)
    (hmissed : phase ≠ .missed) (spanId : SpanId) :
    ¬ Pending { record with phase := phase } spanId := by
  rintro ⟨-, hphase | hphase⟩
  · exact hcalled hphase
  · exact hmissed hphase

theorem miss_steps (h : store.Consistent mapShard none) (hop : store.ops op = some record)
    (hphase : record.phase = .called)
    (habsent : ¬ Inserts record.call → store.fast record.call.spanId = none) :
    Steps mapShard store (store.goto op record .missed) op record := by
  refine ⟨?_, rfl, .miss hphase habsent rfl rfl rfl⟩
  apply (h.exempting op).goto hop
  · exact holds_of_free (by simp)
  · rintro spanId ⟨hcall, -⟩
    have hpending : Pending record spanId := ⟨hcall, .inl hphase⟩
    exact ⟨hpending, h.pending op record spanId (by simp) hop hpending⟩

theorem absent_steps (h : store.Consistent mapShard none) (hop : store.ops op = some record)
    (hphase : record.phase = .missed) (hcall : ¬ Inserts record.call)
    (habsent : store.overflow record.call.spanId = none) :
    Steps mapShard store (store.finish op record (.found none)) op record := by
  refine ⟨?_, rfl, .absent hphase hcall habsent rfl rfl rfl⟩
  apply (h.exempting op).goto hop
  · exact holds_of_free (by simp)
  · intro spanId hpending
    exact absurd hpending (not_pending_of_done (by simp) (by simp) spanId)

/-- An operation takes effect in the fast tier. -/
theorem commit_fast (h : store.Consistent mapShard none) (hop : store.ops op = some record)
    (hphase : record.phase = .called)
    (hholder : (store.active (activeShard record.call.spanId)).holder = none)
    (hoverflow : store.overflow record.call.spanId = none)
    {slots : ActiveSlots Data} {holder : Option (Holder Data)} {value : Option Data}
    {phase : Phase Data} {result : Result Data}
    (hdistinct : slots.Distinct)
    (hhome : ∀ index entry, slots index = some entry →
      activeShard entry.spanId = activeShard record.call.spanId)
    (hlookup : slots.lookup = Function.update
      (store.active (activeShard record.call.spanId)).slots.lookup record.call.spanId value)
    (halone : value ≠ none → store.Alone op record.call.spanId)
    (howned : Owned holder record.call.spanId)
    (hholds : (store.setShard (activeShard record.call.spanId) ⟨slots, holder⟩).Holds mapShard op
      { record with phase := phase })
    (hcalled : phase ≠ .called) (hmissed : phase ≠ .missed)
    (hstep : (mapSpec Data).step (store.content mapShard) record.call =
      (result, Function.update (store.content mapShard) record.call.spanId
        (value.map (settle holder record.call.spanId))))
    (hresult : (∃ guard, phase = .holding guard ∧
        result = .found (value.map (settle holder record.call.spanId))) ∨
      phase = .returned result store.clock) :
    Steps mapShard store ((store.setShard (activeShard record.call.spanId)
      ⟨slots, holder⟩).goto op record phase) op record := by
  have hfree : store.FreeFast op (activeShard record.call.spanId) :=
    freeFast_of_unlocked h hholder
  have hcontent : content mapShard ((store.setShard (activeShard record.call.spanId)
      ⟨slots, holder⟩).goto op record phase) =
        Function.update (store.content mapShard) record.call.spanId
          (value.map (settle holder record.call.spanId)) := by
    rw [content_goto, content_setShard hlookup (by rw [hholder]; exact owned_none _) howned,
      hoverflow, Option.map_none, Option.or_none]
  refine ⟨?_, rfl, .commit phase result (.inl hphase) rfl ?_ ?_ (fun _ hsome => .inl hsome) ?_⟩
  · have hmoved : (store.setShard (activeShard record.call.spanId) ⟨slots, holder⟩).Consistent
        mapShard (some op) :=
      (h.exempting op).setShard hfree hdistinct hhome hlookup
        fun hvalue => ⟨hoverflow, halone hvalue⟩
    apply hmoved.goto hop hholds
    intro spanId hpending
    exact absurd hpending (not_pending_of_done hcalled hmissed spanId)
  · rw [hstep, hcontent]
  · rw [hcontent, Function.update_self]
    exact hresult
  · intro other record' hne hother hholding
    have hspan := unheld_fast h hfree hoverflow other record' hne hother hholding
    rw [hcontent, Function.update_of_ne hspan]

/-- An operation takes effect in the overflow map. -/
theorem commit_slow (h : store.Consistent mapShard none) (hop : store.ops op = some record)
    (hphase : record.phase = .missed)
    (hwriter : store.writer (mapShard record.call.spanId) = none)
    (hfast : store.fast record.call.spanId = none)
    {holder : Option (Holder Data)} {ids : List Nat} {value : Option Data}
    {phase : Phase Data} {result : Result Data}
    (hfree : FreeSlow mapShard store op record.call.spanId value ids)
    (hexclusive : holder ≠ none → ids = [])
    (halone : value ≠ none → store.Alone op record.call.spanId)
    (howned : Owned holder record.call.spanId)
    (hholds : (store.setOverflow mapShard record.call.spanId value holder ids).Holds mapShard op
      { record with phase := phase })
    (hcalled : phase ≠ .called) (hmissed : phase ≠ .missed)
    (hstep : (mapSpec Data).step (store.content mapShard) record.call =
      (result, Function.update (store.content mapShard) record.call.spanId
        (value.map (settle holder record.call.spanId))))
    (hresult : (∃ guard, phase = .holding guard ∧
        result = .found (value.map (settle holder record.call.spanId))) ∨
      phase = .returned result store.clock)
    (hframe : ∀ other record', other ≠ op → store.ops other = some record' → Holding record' →
      record'.call.spanId = record.call.spanId →
        value.map (settle holder record.call.spanId) =
          store.content mapShard record.call.spanId) :
    Steps mapShard store ((store.setOverflow mapShard record.call.spanId value holder
      ids).goto op record phase) op record := by
  have hcontent : content mapShard ((store.setOverflow mapShard record.call.spanId value holder
      ids).goto op record phase) =
        Function.update (store.content mapShard) record.call.spanId
          (value.map (settle holder record.call.spanId)) := by
    rw [content_goto, content_setOverflow (by rw [hwriter]; exact owned_none _) howned, hfast,
      Option.map_none, Option.none_or]
  refine ⟨?_, rfl, .commit phase result (.inr hphase) rfl ?_ ?_ ?_ ?_⟩
  · have hmoved : (store.setOverflow mapShard record.call.spanId value holder ids).Consistent
        mapShard (some op) :=
      (h.exempting op).setOverflow hfree hexclusive fun hvalue => ⟨hfast, halone hvalue⟩
    apply hmoved.goto hop hholds
    intro spanId hpending
    exact absurd hpending (not_pending_of_done hcalled hmissed spanId)
  · rw [hstep, hcontent]
  · rw [hcontent, Function.update_self]
    exact hresult
  · intro spanId hsome
    rw [hcontent]
    by_cases hspan : spanId = record.call.spanId
    · subst hspan
      rcases value with _ | value
      · right
        simp
      · left
        simp [setOverflow, goto]
    · left
      simpa [setOverflow, goto, hspan] using hsome
  · intro other record' hne hother hholding
    rw [hcontent]
    by_cases hspan : record'.call.spanId = record.call.spanId
    · rw [hspan, Function.update_self]
      exact hframe other record' hne hother hholding hspan
    · rw [Function.update_of_ne hspan]

/-- A use of a guard of the fast tier. -/
theorem use_fast (h : store.Consistent mapShard none) (hop : store.ops op = some record)
    (hphase : Holding record) {updates : List (Data → Data)}
    (hholder : (store.active (activeShard record.call.spanId)).holder =
      some ⟨op, record.call.spanId, updates⟩)
    (hoverflow : store.overflow record.call.spanId = none)
    {slots : ActiveSlots Data} {holder : Option (Holder Data)} {value : Option Data}
    {phase : Phase Data}
    (hdistinct : slots.Distinct)
    (hhome : ∀ index entry, slots index = some entry →
      activeShard entry.spanId = activeShard record.call.spanId)
    (hlookup : slots.lookup = Function.update
      (store.active (activeShard record.call.spanId)).slots.lookup record.call.spanId value)
    (howned : Owned holder record.call.spanId)
    (hvalue : value.map (settle holder record.call.spanId) =
      store.content mapShard record.call.spanId)
    (halone : store.Alone op record.call.spanId)
    (hholds : (store.setShard (activeShard record.call.spanId) ⟨slots, holder⟩).Holds mapShard op
      { record with phase := phase })
    (hcalled : phase ≠ .called) (hmissed : phase ≠ .missed)
    (hresult : (∃ guard, phase = .holding guard) ∨
      phase = .returned (.found (store.content mapShard record.call.spanId)) store.clock) :
    Steps mapShard store ((store.setShard (activeShard record.call.spanId)
      ⟨slots, holder⟩).goto op record phase) op record := by
  have hcontent : content mapShard ((store.setShard (activeShard record.call.spanId)
      ⟨slots, holder⟩).goto op record phase) = store.content mapShard := by
    rw [content_goto, content_setShard hlookup (by rw [hholder]; exact owned_some rfl) howned,
      hoverflow, Option.map_none, Option.or_none, hvalue, Function.update_eq_self]
  refine ⟨?_, rfl, .use phase hphase rfl hcontent hresult fun _ hsome => hsome⟩
  have hmoved : (store.setShard (activeShard record.call.spanId) ⟨slots, holder⟩).Consistent
      mapShard (some op) :=
    (h.exempting op).setShard (freeFast_of_owner h hholder) hdistinct hhome hlookup
      fun _ => ⟨hoverflow, halone⟩
  apply hmoved.goto hop hholds
  intro spanId hpending
  exact absurd hpending (not_pending_of_done hcalled hmissed spanId)

/-- A use of a guard of the overflow map. -/
theorem use_slow (h : store.Consistent mapShard none) (hop : store.ops op = some record)
    (hphase : Holding record)
    (hbefore : Owned (store.writer (mapShard record.call.spanId)) record.call.spanId)
    (hfast : store.fast record.call.spanId = none)
    {holder : Option (Holder Data)} {ids : List Nat} {data : Data} {phase : Phase Data}
    (hfree : FreeSlow mapShard store op record.call.spanId (some data) ids)
    (hexclusive : holder ≠ none → ids = [])
    (halone : store.Alone op record.call.spanId)
    (howned : Owned holder record.call.spanId)
    (hvalue : some (settle holder record.call.spanId data) =
      store.content mapShard record.call.spanId)
    (hholds : (store.setOverflow mapShard record.call.spanId (some data) holder ids).Holds
      mapShard op { record with phase := phase })
    (hcalled : phase ≠ .called) (hmissed : phase ≠ .missed)
    (hresult : (∃ guard, phase = .holding guard) ∨
      phase = .returned (.found (store.content mapShard record.call.spanId)) store.clock) :
    Steps mapShard store ((store.setOverflow mapShard record.call.spanId (some data) holder
      ids).goto op record phase) op record := by
  have hcontent : content mapShard ((store.setOverflow mapShard record.call.spanId (some data)
      holder ids).goto op record phase) = store.content mapShard := by
    rw [content_goto, content_setOverflow hbefore howned, hfast, Option.map_none, Option.none_or,
      Option.map_some, hvalue, Function.update_eq_self]
  refine ⟨?_, rfl, .use phase hphase rfl hcontent hresult ?_⟩
  · have hmoved : (store.setOverflow mapShard record.call.spanId (some data) holder
        ids).Consistent mapShard (some op) :=
      (h.exempting op).setOverflow hfree hexclusive fun _ => ⟨hfast, halone⟩
    apply hmoved.goto hop hholds
    intro spanId hpending
    exact absurd hpending (not_pending_of_done hcalled hmissed spanId)
  · intro spanId hsome
    by_cases hspan : spanId = record.call.spanId
    · subst hspan
      simp [setOverflow, goto]
    · simpa [setOverflow, goto, hspan] using hsome

/-- Where an id is stored, no insertion of it is under way. -/
theorem alone_of_present (h : store.Consistent mapShard none) {spanId : SpanId}
    (hpresent : store.fast spanId ≠ none ∨ store.overflow spanId ≠ none) :
    store.Alone op spanId := by
  intro other record' _ hother hpending
  obtain ⟨-, hfast, hoverflow⟩ := h.pending other record' spanId (by simp) hother hpending
  exact hpresent.elim (fun hsome => hsome hfast) (fun hsome => hsome hoverflow)

theorem alone_of_pending (h : store.Consistent mapShard none) (hop : store.ops op = some record)
    {spanId : SpanId} (hpending : Pending record spanId) : store.Alone op spanId := by
  intro other record' hne hother hpending'
  exact hne (h.unique other op record' record spanId hother hop hpending' hpending)

/-- The slots of a shard have no entry of an id that the fast tier lacks. -/
theorem absent_slots (h : store.Consistent mapShard none) {spanId : SpanId}
    (hfast : store.fast spanId = none) {index : Fin fastSlots} {entry : ActiveEntry Data}
    (hslot : (store.active (activeShard spanId)).slots index = some entry) :
    entry.spanId ≠ spanId := by
  intro hspan
  simp [fast_of_slot h hslot hspan] at hfast

theorem first_insert {spanId : SpanId} {data : Data} {calledAt : Nat}
    (h : store.Consistent mapShard none)
    (hop : store.ops op = some ⟨.insert spanId data, calledAt, .called⟩)
    (hfirst : store.first op ⟨.insert spanId data, calledAt, .called⟩ = some store') :
    Steps mapShard store store' op ⟨.insert spanId data, calledAt, .called⟩ := by
  have hpending : Pending ⟨.insert spanId data, calledAt, .called⟩ spanId :=
    ⟨⟨data, rfl⟩, .inl rfl⟩
  obtain ⟨hzero, hfast, hoverflow⟩ := h.pending op _ spanId (by simp) hop hpending
  rcases hholder : (store.active (activeShard spanId)).holder with _ | holder
  · rcases hinsert : (store.active (activeShard spanId)).slots.insert spanId data
      with _ | slots
    · simp only [first, Call.spanId, hholder, hinsert, Option.some.injEq] at hfirst
      subst hfirst
      apply miss_steps h hop rfl
      intro hcall
      exact absurd ⟨spanId, data, rfl⟩ hcall
    · simp only [first, Call.spanId, hholder, hinsert, if_neg hzero,
        Option.some.injEq] at hfirst
      subst hfirst
      obtain ⟨index, hslot, rfl⟩ := ActiveSlots.insert_some hinsert
      have hothers : ∀ other entry', other ≠ index →
          (store.active (activeShard spanId)).slots other = some entry' →
          entry'.spanId ≠ (⟨spanId, data⟩ : ActiveEntry Data).spanId :=
        fun other entry' _ hentry => absent_slots h hfast hentry
      apply commit_fast h hop rfl hholder hoverflow
        (ActiveSlots.distinct_put (h.distinct _) hothers)
      · intro other entry hentry
        by_cases hother : other = index
        · subst hother
          rw [Function.update_self, Option.some.injEq] at hentry
          subst hentry
          rfl
        · rw [Function.update_of_ne hother] at hentry
          exact h.home _ other entry hentry
      · exact ActiveSlots.lookup_put (h.distinct _) hothers (by simp [hslot])
      · exact fun _ => alone_of_pending h hop hpending
      · exact owned_none _
      · exact holds_of_free (by simp)
      · simp
      · simp
      · rfl
      · exact .inr rfl
  · simp [first, Call.spanId, hholder] at hfirst

theorem first_take {spanId : SpanId} {calledAt : Nat} (h : store.Consistent mapShard none)
    (hop : store.ops op = some ⟨.take spanId, calledAt, .called⟩)
    (hfirst : store.first op ⟨.take spanId, calledAt, .called⟩ = some store') :
    Steps mapShard store store' op ⟨.take spanId, calledAt, .called⟩ := by
  rcases hholder : (store.active (activeShard spanId)).holder with _ | holder
  · rcases htake : (store.active (activeShard spanId)).slots.take spanId
      with _ | ⟨data, slots⟩
    · simp only [first, Call.spanId, hholder, htake, Option.some.injEq] at hfirst
      subst hfirst
      exact miss_steps h hop rfl fun _ => ActiveSlots.take_none htake
    · simp only [first, Call.spanId, hholder, htake, Option.some.injEq] at hfirst
      subst hfirst
      obtain ⟨index, entry, hslot, rfl, rfl, rfl⟩ := ActiveSlots.take_some htake
      have hfast := fast_of_slot h hslot rfl
      have hoverflow := h.apart entry.spanId (by simp [hfast])
      apply commit_fast h hop rfl hholder hoverflow (ActiveSlots.distinct_remove (h.distinct _) _)
      · intro other entry' hentry
        by_cases hother : other = index
        · subst hother
          simp at hentry
        · rw [Function.update_of_ne hother] at hentry
          exact h.home _ other entry' hentry
      · exact ActiveSlots.lookup_remove (h.distinct _) hslot
      · exact fun hnone => absurd rfl hnone
      · exact owned_none _
      · exact holds_of_free (by simp)
      · simp
      · simp
      · simp only [mapSpec, content_fast hfast, hholder, settle_none]
        rfl
      · exact .inr rfl
  · simp [first, Call.spanId, hholder] at hfirst

/-- `get` and `get_mut`. -/
def Finds (call : Call Data) : Prop :=
  (∃ spanId, call = .get spanId) ∨ ∃ spanId updates, call = .getMut spanId updates

theorem Finds.step {call : Call Data} (hcall : Finds call) {map : SpanId → Option Data}
    {data : Data} (hdata : map call.spanId = some data) :
    (mapSpec Data).step map call =
      (.found (some (call.updates.foldl (fun data update => update data) data)),
        Function.update map call.spanId
          (some (call.updates.foldl (fun data update => update data) data))) := by
  rcases hcall with ⟨spanId, rfl⟩ | ⟨spanId, updates, rfl⟩
  · simp only [mapSpec, Call.spanId] at hdata ⊢
    rw [hdata]
    exact congrArg _ (Function.update_eq_self_iff.2 hdata.symm).symm
  · simp only [mapSpec, Call.spanId] at hdata ⊢
    rw [hdata]
    rfl

theorem acquire_fast (h : store.Consistent mapShard none) (hop : store.ops op = some record)
    (hphase : record.phase = .called) (hcall : Finds record.call)
    (hholder : (store.active (activeShard record.call.spanId)).holder = none)
    {index : Fin fastSlots}
    (hindex : (store.active (activeShard record.call.spanId)).slots.index record.call.spanId =
      some index) :
    Steps mapShard store ((store.setShard (activeShard record.call.spanId)
      ⟨(store.active (activeShard record.call.spanId)).slots,
        some ⟨op, record.call.spanId, record.call.updates⟩⟩).goto op record
          (.holding (.fast (activeShard record.call.spanId) index))) op record := by
  obtain ⟨entry, hslot, hspan⟩ := ActiveSlots.index_some hindex
  have hfast := fast_of_slot h hslot hspan
  have hoverflow := h.apart record.call.spanId (by simp [hfast])
  have hlookup : (store.active (activeShard record.call.spanId)).slots.lookup
      record.call.spanId = some entry.data := hfast
  apply commit_fast h hop hphase hholder hoverflow (h.distinct _) (h.home _)
  · exact (Function.update_eq_self_iff.2 hlookup.symm).symm
  · exact fun _ => alone_of_present h (.inl (by simp [hfast]))
  · exact owned_some rfl
  · refine ⟨rfl, ⟨entry, ?_, hspan⟩, record.call.updates, ?_⟩
    · simpa [setShard] using hslot
    · simp [setShard]
  · simp
  · simp
  · rw [hcall.step (content_fast hfast), hholder, settle_none, Option.map_some, settle_own]
  · left
    exact ⟨_, rfl, by rw [Option.map_some, settle_own]⟩

theorem first_find {call : Call Data} {calledAt : Nat} (h : store.Consistent mapShard none)
    (hcall : Finds call) (hop : store.ops op = some ⟨call, calledAt, .called⟩)
    (hfirst : store.first op ⟨call, calledAt, .called⟩ = some store') :
    Steps mapShard store store' op ⟨call, calledAt, .called⟩ := by
  rcases hholder : (store.active (activeShard call.spanId)).holder with _ | holder
  · rcases hindex : (store.active (activeShard call.spanId)).slots.index call.spanId
      with _ | index
    · have hmiss := miss_steps h hop rfl fun _ => ActiveSlots.lookup_none_iff.2 hindex
      rcases hcall with ⟨spanId, rfl⟩ | ⟨spanId, updates, rfl⟩ <;>
        simp only [Call.spanId] at hholder hindex <;>
        simp only [first, Call.spanId, hholder, hindex, Option.some.injEq] at hfirst <;>
        exact hfirst ▸ hmiss
    · have hacquire := acquire_fast h hop rfl hcall hholder hindex
      rcases hcall with ⟨spanId, rfl⟩ | ⟨spanId, updates, rfl⟩ <;>
        simp only [Call.spanId] at hholder hindex <;>
        simp only [first, Call.spanId, hholder, hindex, Option.some.injEq] at hfirst <;>
        exact hfirst ▸ hacquire
  · rcases hcall with ⟨spanId, rfl⟩ | ⟨spanId, updates, rfl⟩ <;>
      simp only [Call.spanId] at hholder <;> simp [first, Call.spanId, hholder] at hfirst

theorem first_steps (h : store.Consistent mapShard none) (hop : store.ops op = some record)
    (hphase : record.phase = .called) (hfirst : store.first op record = some store') :
    Steps mapShard store store' op record := by
  obtain ⟨call, calledAt, phase⟩ := record
  obtain rfl : phase = .called := hphase
  cases call with
  | insert spanId data => exact first_insert h hop hfirst
  | get spanId => exact first_find h (.inl ⟨spanId, rfl⟩) hop hfirst
  | getMut spanId updates => exact first_find h (.inr ⟨spanId, updates, rfl⟩) hop hfirst
  | take spanId => exact first_take h hop hfirst

theorem setOverflow_readers (store : Store Data) (spanId : SpanId) (ids : List Nat) :
    ({ store with
      readers := Function.update store.readers (mapShard spanId) ids } : Store Data) =
        store.setOverflow mapShard spanId (store.overflow spanId)
          (store.writer (mapShard spanId)) ids := by
  simp [setOverflow]

theorem setOverflow_overflow (store : Store Data) (spanId : SpanId) (value : Option Data) :
    ({ store with overflow := Function.update store.overflow spanId value } : Store Data) =
      store.setOverflow mapShard spanId value (store.writer (mapShard spanId))
        (store.readers (mapShard spanId)) := by
  simp [setOverflow]

theorem setOverflow_writer (store : Store Data) (spanId : SpanId)
    (holder : Option (Holder Data)) :
    ({ store with
      writer := Function.update store.writer (mapShard spanId) holder } : Store Data) =
        store.setOverflow mapShard spanId (store.overflow spanId) holder
          (store.readers (mapShard spanId)) := by
  simp [setOverflow]

theorem setOverflow_update (store : Store Data) (spanId : SpanId) (value : Option Data)
    (holder : Option (Holder Data)) :
    ({ store with
      overflow := Function.update store.overflow spanId value
      writer := Function.update store.writer (mapShard spanId) holder } : Store Data) =
        store.setOverflow mapShard spanId value holder (store.readers (mapShard spanId)) := by
  simp [setOverflow]

theorem fast_none_of_overflow (h : store.Consistent mapShard none) {spanId : SpanId}
    (hoverflow : store.overflow spanId ≠ none) : store.fast spanId = none := by
  by_contra hfast
  exact hoverflow (h.apart spanId hfast)

theorem second_insert {spanId : SpanId} {data : Data} {calledAt : Nat}
    (h : store.Consistent mapShard none)
    (hop : store.ops op = some ⟨.insert spanId data, calledAt, .missed⟩)
    (hsecond : store.second mapShard op ⟨.insert spanId data, calledAt, .missed⟩ =
      some store') :
    Steps mapShard store store' op ⟨.insert spanId data, calledAt, .missed⟩ := by
  have hpending : Pending ⟨.insert spanId data, calledAt, .missed⟩ spanId :=
    ⟨⟨data, rfl⟩, .inr rfl⟩
  obtain ⟨-, hfast, hoverflow⟩ := h.pending op _ spanId (by simp) hop hpending
  rcases hwriter : store.writer (mapShard spanId) with _ | holder
  · by_cases hreaders : store.readers (mapShard spanId) = []
    · simp only [second, Call.spanId, hwriter, hreaders, ne_eq, not_true_eq_false, if_false,
        hoverflow, Option.isSome_none, Bool.false_eq_true, Option.some.injEq] at hsecond
      subst hsecond
      rw [finish, setOverflow_overflow]
      rw [hwriter, hreaders]
      apply commit_slow h hop rfl hwriter hfast (freeSlow_of_unlocked h hwriter hreaders)
      · exact fun _ => rfl
      · exact fun _ => alone_of_pending h hop hpending
      · exact owned_none _
      · exact holds_of_free (by simp)
      · simp
      · simp
      · rfl
      · exact .inr rfl
      · intro other record' hne hother hholding hspan
        exact absurd hspan (unheld_slow h hfast hwriter hreaders other record' hne hother hholding)
    · simp [second, Call.spanId, hwriter, hreaders] at hsecond
  · simp [second, Call.spanId, hwriter] at hsecond

theorem second_take {spanId : SpanId} {calledAt : Nat} (h : store.Consistent mapShard none)
    (hop : store.ops op = some ⟨.take spanId, calledAt, .missed⟩)
    (hsecond : store.second mapShard op ⟨.take spanId, calledAt, .missed⟩ = some store') :
    Steps mapShard store store' op ⟨.take spanId, calledAt, .missed⟩ := by
  rcases hwriter : store.writer (mapShard spanId) with _ | holder
  · by_cases hreaders : store.readers (mapShard spanId) = []
    · rcases hoverflow : store.overflow spanId with _ | data
      · simp only [second, Call.spanId, hwriter, hreaders, ne_eq, not_true_eq_false, if_false,
          hoverflow, Option.some.injEq] at hsecond
        subst hsecond
        apply absent_steps h hop rfl _ hoverflow
        rintro ⟨_, _, hcall⟩
        simp at hcall
      · simp only [second, Call.spanId, hwriter, hreaders, ne_eq, not_true_eq_false, if_false,
          hoverflow, Option.some.injEq] at hsecond
        subst hsecond
        have hfast : store.fast spanId = none := fast_none_of_overflow h (by simp [hoverflow])
        rw [finish, setOverflow_overflow]
        rw [hwriter, hreaders]
        apply commit_slow h hop rfl hwriter hfast (freeSlow_of_unlocked h hwriter hreaders)
        · exact fun _ => rfl
        · exact fun hnone => absurd rfl hnone
        · exact owned_none _
        · exact holds_of_free (by simp)
        · simp
        · simp
        · simp only [mapSpec, content_slow hfast, hwriter, hoverflow]
          rfl
        · exact .inr rfl
        · intro other record' hne hother hholding hspan
          exact absurd hspan
            (unheld_slow h hfast hwriter hreaders other record' hne hother hholding)
    · simp [second, Call.spanId, hwriter, hreaders] at hsecond
  · simp [second, Call.spanId, hwriter] at hsecond

theorem second_get {spanId : SpanId} {calledAt : Nat} (h : store.Consistent mapShard none)
    (hop : store.ops op = some ⟨.get spanId, calledAt, .missed⟩)
    (hsecond : store.second mapShard op ⟨.get spanId, calledAt, .missed⟩ = some store') :
    Steps mapShard store store' op ⟨.get spanId, calledAt, .missed⟩ := by
  rcases hwriter : store.writer (mapShard spanId) with _ | holder
  · rcases hoverflow : store.overflow spanId with _ | data
    · simp only [second, Call.spanId, hwriter, hoverflow, Option.some.injEq] at hsecond
      subst hsecond
      apply absent_steps h hop rfl _ hoverflow
      rintro ⟨_, _, hcall⟩
      simp at hcall
    · simp only [second, Call.spanId, hwriter, hoverflow, Option.some.injEq] at hsecond
      subst hsecond
      have hfast : store.fast spanId = none := fast_none_of_overflow h (by simp [hoverflow])
      have hcontent : store.content mapShard spanId = some data := by
        rw [content_slow hfast, hwriter, hoverflow]
        rfl
      rw [setOverflow_readers, hoverflow, hwriter]
      apply commit_slow h hop rfl hwriter hfast
      · -- Readers share the lock.
        intro other record' _ hother hshard
        have hsame : mapShard record'.call.spanId = mapShard spanId := hshard
        have hholds := h.locks other record' (by simp) hother
        constructor
        · intro hphase
          simp [Holds, hphase, hsame, hwriter] at hholds
        · intro hphase
          simp only [Holds, hphase, hsame] at hholds
          exact ⟨List.mem_cons_of_mem _ hholds.1, by simp⟩
      · exact fun hnone => absurd rfl hnone
      · exact fun _ => alone_of_present h (.inr (by simp [Call.spanId, hoverflow]))
      · exact owned_none _
      · simp [Holds, setOverflow, Call.spanId]
      · simp
      · simp
      · simp only [mapSpec, Call.spanId, hcontent, Option.map_some, settle_none]
        exact congrArg _ (Function.update_eq_self_iff.2 hcontent.symm).symm
      · exact .inl ⟨.shared, rfl, rfl⟩
      · exact fun _ _ _ _ _ _ => hcontent.symm
  · simp [second, Call.spanId, hwriter] at hsecond

theorem second_getMut {spanId : SpanId} {updates : List (Data → Data)} {calledAt : Nat}
    (h : store.Consistent mapShard none)
    (hop : store.ops op = some ⟨.getMut spanId updates, calledAt, .missed⟩)
    (hsecond : store.second mapShard op ⟨.getMut spanId updates, calledAt, .missed⟩ =
      some store') :
    Steps mapShard store store' op ⟨.getMut spanId updates, calledAt, .missed⟩ := by
  rcases hwriter : store.writer (mapShard spanId) with _ | holder
  · by_cases hreaders : store.readers (mapShard spanId) = []
    · rcases hoverflow : store.overflow spanId with _ | data
      · simp only [second, Call.spanId, hwriter, hreaders, ne_eq, not_true_eq_false, if_false,
          hoverflow, Option.some.injEq] at hsecond
        subst hsecond
        apply absent_steps h hop rfl _ hoverflow
        rintro ⟨_, _, hcall⟩
        simp at hcall
      · simp only [second, Call.spanId, hwriter, hreaders, ne_eq, not_true_eq_false, if_false,
          hoverflow, Option.some.injEq] at hsecond
        subst hsecond
        have hfast : store.fast spanId = none := fast_none_of_overflow h (by simp [hoverflow])
        have hcontent : store.content mapShard spanId = some data := by
          rw [content_slow hfast, hwriter, hoverflow]
          rfl
        rw [setOverflow_writer, hoverflow, hreaders]
        apply commit_slow h hop rfl hwriter hfast (freeSlow_of_unlocked h hwriter hreaders)
        · exact fun _ => rfl
        · exact fun _ => alone_of_present h (.inr (by simp [Call.spanId, hoverflow]))
        · exact owned_some rfl
        · simp [Holds, setOverflow, Call.spanId]
        · simp
        · simp
        · simp only [Call.spanId, Option.map_some, settle_own]
          exact Finds.step (.inr ⟨spanId, updates, rfl⟩) hcontent
        · exact .inl ⟨.exclusive, rfl, by simp [Call.spanId, Call.updates]⟩
        · intro other record' hne hother hholding hspan
          exact absurd hspan
            (unheld_slow h hfast hwriter hreaders other record' hne hother hholding)
    · simp [second, Call.spanId, hwriter, hreaders] at hsecond
  · simp [second, Call.spanId, hwriter] at hsecond

theorem second_steps (h : store.Consistent mapShard none) (hop : store.ops op = some record)
    (hphase : record.phase = .missed)
    (hsecond : store.second mapShard op record = some store') :
    Steps mapShard store store' op record := by
  obtain ⟨call, calledAt, phase⟩ := record
  obtain rfl : phase = .missed := hphase
  cases call with
  | insert spanId data => exact second_insert h hop hsecond
  | get spanId => exact second_get h hop hsecond
  | getMut spanId updates => exact second_getMut h hop hsecond
  | take spanId => exact second_take h hop hsecond

theorem hold_fast (h : store.Consistent mapShard none) (hop : store.ops op = some record)
    {shard : Nat} {index : Fin fastSlots} (hphase : record.phase = .holding (.fast shard index))
    (hhold : store.hold mapShard op record (.fast shard index) = some store') :
    Steps mapShard store store' op record := by
  have hholds := h.locks op record (by simp) hop
  simp only [Holds, hphase] at hholds
  obtain ⟨rfl, ⟨entry, hslot, hspan⟩, updates, hholder⟩ := hholds
  have hfast := fast_of_slot h hslot hspan
  have hoverflow := h.apart record.call.spanId (by simp [hfast])
  have hcontent : store.content mapShard record.call.spanId =
      some (updates.foldl (fun data update => update data) entry.data) := by
    rw [content_fast hfast, hholder, settle_own]
  have halone : store.Alone op record.call.spanId := alone_of_present h (.inl (by simp [hfast]))
  have hlookup : (store.active (activeShard record.call.spanId)).slots.lookup
      record.call.spanId = some entry.data := hfast
  have hothers : ∀ data other entry', other ≠ index →
      (store.active (activeShard record.call.spanId)).slots other = some entry' →
      entry'.spanId ≠ (⟨entry.spanId, data⟩ : ActiveEntry Data).spanId := by
    intro data other entry' hne hentry hsame
    exact hne (h.distinct _ other index entry' entry hentry hslot hsame)
  have hput : ∀ data, ActiveSlots.lookup (Function.update
      (store.active (activeShard record.call.spanId)).slots index (some ⟨entry.spanId, data⟩)) =
        Function.update (store.active (activeShard record.call.spanId)).slots.lookup
          record.call.spanId (some data) := by
    intro data
    have hown : ∀ entry', (store.active (activeShard record.call.spanId)).slots index =
        some entry' → entry'.spanId = (⟨entry.spanId, data⟩ : ActiveEntry Data).spanId := by
      intro entry' hentry
      rw [hslot, Option.some.injEq] at hentry
      rw [← hentry]
    rw [← hspan] at hothers hown ⊢
    exact ActiveSlots.lookup_put (h.distinct _) (hothers data) hown
  cases updates with
  | nil =>
      simp only [hold, hholder, hslot, Option.some.injEq] at hhold
      subst hhold
      apply use_fast h hop ⟨_, hphase⟩ hholder hoverflow (h.distinct _) (h.home _)
      · exact (Function.update_eq_self_iff.2 hlookup.symm).symm
      · exact owned_none _
      · exact hcontent.symm
      · exact halone
      · exact holds_of_free (by simp)
      · simp
      · simp
      · right
        rw [hcontent]
        rfl
  | cons update updates =>
      simp only [hold, hholder, hslot, Option.some.injEq] at hhold
      subst hhold
      apply use_fast h hop ⟨_, hphase⟩ hholder hoverflow
        (ActiveSlots.distinct_put (h.distinct _) (hothers (update entry.data)))
      · intro other entry' hentry
        by_cases hother : other = index
        · subst hother
          rw [Function.update_self, Option.some.injEq] at hentry
          subst hentry
          exact congrArg activeShard hspan
        · rw [Function.update_of_ne hother] at hentry
          exact h.home _ other entry' hentry
      · exact hput (update entry.data)
      · exact owned_some rfl
      · rw [hcontent, Option.map_some, settle_own]
        rfl
      · exact halone
      · refine ⟨rfl, ⟨{ entry with data := update entry.data }, ?_, hspan⟩, updates, ?_⟩
        · simp [setShard]
        · simp [setShard]
      · simp
      · simp
      · exact .inl ⟨_, rfl⟩

theorem hold_shared (h : store.Consistent mapShard none) (hop : store.ops op = some record)
    (hphase : record.phase = .holding .shared)
    (hhold : store.hold mapShard op record .shared = some store') :
    Steps mapShard store store' op record := by
  have hholds := h.locks op record (by simp) hop
  simp only [Holds, hphase] at hholds
  obtain ⟨hmem, hsome⟩ := hholds
  have hfast := fast_none_of_overflow h hsome
  have hwriter : store.writer (mapShard record.call.spanId) = none := by
    by_contra hwriter
    simp [h.exclusive _ hwriter] at hmem
  rcases hoverflow : store.overflow record.call.spanId with _ | data
  · exact absurd hoverflow hsome
  · have hcontent : store.content mapShard record.call.spanId = some data := by
      rw [content_slow hfast, hwriter, hoverflow]
      rfl
    simp only [hold, hoverflow, Option.some.injEq] at hhold
    subst hhold
    rw [finish, setOverflow_readers, hoverflow, hwriter]
    apply use_slow h hop ⟨_, hphase⟩ (by rw [hwriter]; exact owned_none _) hfast
    · intro other record' hne hother hshard
      have hheld := h.locks other record' (by simp) hother
      constructor
      · intro hexclusive
        simp [Holds, hexclusive, hshard, hwriter] at hheld
      · intro hshared
        simp only [Holds, hshared, hshard] at hheld
        exact ⟨(List.mem_erase_of_ne hne).2 hheld.1, by simp⟩
    · exact fun hnone => absurd rfl hnone
    · exact alone_of_present h (.inr hsome)
    · exact owned_none _
    · exact hcontent.symm
    · exact holds_of_free (by simp)
    · simp
    · simp
    · right
      rw [hcontent]
      rfl

theorem hold_exclusive (h : store.Consistent mapShard none) (hop : store.ops op = some record)
    (hphase : record.phase = .holding .exclusive)
    (hhold : store.hold mapShard op record .exclusive = some store') :
    Steps mapShard store store' op record := by
  have hholds := h.locks op record (by simp) hop
  simp only [Holds, hphase] at hholds
  obtain ⟨hsome, updates, hwriter⟩ := hholds
  have hfast := fast_none_of_overflow h hsome
  have hreaders := h.exclusive (mapShard record.call.spanId) (by simp [hwriter])
  have howned : Owned (store.writer (mapShard record.call.spanId)) record.call.spanId := by
    rw [hwriter]
    exact owned_some rfl
  rcases hoverflow : store.overflow record.call.spanId with _ | data
  · exact absurd hoverflow hsome
  have hcontent : store.content mapShard record.call.spanId =
      some (updates.foldl (fun data update => update data) data) := by
    rw [content_slow hfast, hwriter, hoverflow, Option.map_some, settle_own]
  have hfree : ∀ next, FreeSlow mapShard store op record.call.spanId (some next) [] := by
    intro next other record' hne hother hshard
    have hheld := h.locks other record' (by simp) hother
    constructor
    · intro hexclusive
      simp only [Holds, hexclusive, hshard, hwriter, Option.some.injEq, Holder.mk.injEq] at hheld
      obtain ⟨-, -, hsame, -⟩ := hheld
      exact hne hsame.symm
    · intro hshared
      simp [Holds, hshared, hshard, hreaders] at hheld
  have halone : store.Alone op record.call.spanId := alone_of_present h (.inr hsome)
  cases updates with
  | nil =>
      simp only [hold, hwriter, hoverflow, Option.some.injEq] at hhold
      subst hhold
      rw [finish, setOverflow_writer, hoverflow, hreaders]
      apply use_slow h hop ⟨_, hphase⟩ howned hfast (hfree data)
      · exact fun _ => rfl
      · exact halone
      · exact owned_none _
      · exact hcontent.symm
      · exact holds_of_free (by simp)
      · simp
      · simp
      · right
        rw [hcontent]
        rfl
  | cons update updates =>
      simp only [hold, hwriter, hoverflow, Option.some.injEq] at hhold
      subst hhold
      rw [setOverflow_update, hreaders]
      apply use_slow h hop ⟨_, hphase⟩ howned hfast (hfree (update data))
      · exact fun _ => rfl
      · exact halone
      · exact owned_some rfl
      · rw [hcontent, settle_own]
        rfl
      · simp [Holds, setOverflow]
      · simp
      · simp
      · exact .inl ⟨_, rfl⟩

/-- The step lemma. -/
theorem act_steps (h : store.Consistent mapShard none) (hop : store.ops op = some record)
    (hstep : store.step mapShard (.act op) = some store') :
    Steps mapShard store store' op record := by
  simp only [step, hop] at hstep
  rcases hphase : record.phase with _ | _ | (⟨shard, index⟩ | _ | _) | ⟨result, time⟩ <;>
    simp only [hphase] at hstep
  · exact first_steps h hop hphase hstep
  · exact second_steps h hop hphase hstep
  · exact hold_fast h hop hphase hstep
  · exact hold_shared h hop hphase hstep
  · exact hold_exclusive h hop hphase hstep
  · cases hstep

end Steps

section Logs

variable {Data : Type} (mapShard : SpanId → Nat)

abbrev Log (Data : Type) := List (Entry (Call Data) (Result Data))

/-- The atomic map after the operations of a log. -/
def mapAfter (log : Log Data) : SpanId → Option Data :=
  Linearizability.after (mapSpec Data) (fun _ => none) log

/-- What the log says about an operation in each phase. -/
def Progress (store : Store Data) (log : Log Data) (op : Nat) (record : Op Data) : Prop :=
  match record.phase with
  | .called => True
  | .missed => Inserts record.call ∨ store.overflow record.call.spanId ≠ none ∨
      ∃ point, record.calledAt ≤ point ∧ point < store.clock ∧
        mapAfter (Linearizability.upTo point log) record.call.spanId = none
  | .holding _ => ∃ entry ∈ log, entry.op = op ∧
      entry.result = .found (store.content mapShard record.call.spanId)
  | .returned result time => ∃ entry ∈ log, entry.op = op ∧ entry.result = result ∧
      entry.point ≤ time

/-- The log of the operations that have taken effect. -/
structure Linked (store : Store Data) (log : Log Data) : Prop where
  legal : Linearizability.Legal (mapSpec Data) (fun _ => none) log
  sorted : Linearizability.Sorted log
  nodup : (log.map Entry.op).Nodup
  past : ∀ entry ∈ log, entry.point < store.clock
  state : mapAfter log = store.content mapShard
  calls : ∀ op record, store.ops op = some record → record.calledAt < store.clock
  entries : ∀ entry ∈ log, ∃ record, store.ops entry.op = some record ∧
    record.call = entry.call ∧ record.calledAt ≤ entry.point ∧
    record.phase ≠ .called ∧ record.phase ≠ .missed
  progress : ∀ op record, store.ops op = some record → Progress mapShard store log op record

variable {mapShard} {store store' : Store Data} {log log' : Log Data} {op : Nat}
  {record record' : Op Data}

/-- An operation that has not taken effect is not in the log. -/
theorem Linked.not_mem (h : Linked mapShard store log) (hop : store.ops op = some record)
    (hphase : record.phase = .called ∨ record.phase = .missed) :
    ∀ entry ∈ log, entry.op ≠ op := by
  rintro entry hentry rfl
  obtain ⟨record', hop', -, -, hcalled, hmissed⟩ := h.entries entry hentry
  rw [hop, Option.some.injEq] at hop'
  subst hop'
  exact hphase.elim hcalled hmissed

/-- One operation goes on, and the log with it. -/
theorem Linked.extend (h : Linked mapShard store log)
    (hops : store'.ops = Function.update store.ops op (some record'))
    (hclock : store'.clock = store.clock + 1)
    (hlegal : Linearizability.Legal (mapSpec Data) (fun _ => none) log')
    (hsorted : Linearizability.Sorted log') (hnodup : (log'.map Entry.op).Nodup)
    (hpast : ∀ entry ∈ log', entry.point < store'.clock)
    (hstate : mapAfter log' = store'.content mapShard)
    (hcalled : record'.calledAt < store'.clock)
    (hkeep : ∀ entry ∈ log, entry ∈ log')
    (hnew : ∀ entry ∈ log', entry.op ≠ op → entry ∈ log)
    (hown : ∀ entry ∈ log', entry.op = op → record'.call = entry.call ∧
      record'.calledAt ≤ entry.point ∧ record'.phase ≠ .called ∧ record'.phase ≠ .missed)
    (htimes : ∀ point, point < store.clock →
      mapAfter (Linearizability.upTo point log') = mapAfter (Linearizability.upTo point log))
    (hprogress : Progress mapShard store' log' op record')
    (hoverflow : ∀ spanId, store.overflow spanId ≠ none →
      store'.overflow spanId ≠ none ∨ store'.content mapShard spanId = none)
    (hframe : ∀ other old, other ≠ op → store.ops other = some old → Holding old →
      store'.content mapShard old.call.spanId = store.content mapShard old.call.spanId) :
    Linked mapShard store' log' := by
  have hsplit : ∀ other old, store'.ops other = some old →
      (other = op ∧ old = record') ∨ (other ≠ op ∧ store.ops other = some old) := by
    intro other old hother
    rw [hops] at hother
    by_cases hsame : other = op
    · subst hsame
      rw [Function.update_self, Option.some.injEq] at hother
      exact .inl ⟨rfl, hother.symm⟩
    · rw [Function.update_of_ne hsame] at hother
      exact .inr ⟨hsame, hother⟩
  refine ⟨hlegal, hsorted, hnodup, hpast, hstate, ?_, ?_, ?_⟩
  · intro other old hother
    rcases hsplit other old hother with ⟨-, rfl⟩ | ⟨-, hold⟩
    · exact hcalled
    · have hbefore := h.calls other old hold
      omega
  · intro entry hentry
    rw [hops]
    by_cases hsame : entry.op = op
    · obtain ⟨hcall, htime, hphase⟩ := hown entry hentry hsame
      exact ⟨record', by rw [hsame, Function.update_self], hcall, htime, hphase⟩
    · obtain ⟨old, hold, hrest⟩ := h.entries entry (hnew entry hentry hsame)
      exact ⟨old, by rw [Function.update_of_ne hsame, hold], hrest⟩
  · intro other old hother
    rcases hsplit other old hother with ⟨rfl, rfl⟩ | ⟨hne, hold⟩
    · exact hprogress
    have hbefore := h.progress other old hold
    rcases hphase : old.phase with _ | _ | guard | ⟨result, time⟩ <;>
      simp only [Progress, hphase] at hbefore ⊢
    · -- The entry may leave the overflow map just now.
      rcases hbefore with hinserts | hspilled | ⟨point, hcalledAt, hpoint, hnone⟩
      · exact .inl hinserts
      · rcases hoverflow _ hspilled with hstill | hgone
        · exact .inr (.inl hstill)
        · have hcalls := h.calls other old hold
          refine .inr (.inr ⟨store.clock, by omega, by omega, ?_⟩)
          have hall : ∀ entry ∈ log', entry.point ≤ store.clock := by
            intro entry hentry
            have hlt := hpast entry hentry
            omega
          rw [Linearizability.upTo_all hall, hstate, hgone]
      · refine .inr (.inr ⟨point, hcalledAt, by omega, ?_⟩)
        rw [htimes point hpoint, hnone]
    · obtain ⟨entry, hentry, hsame, hresult⟩ := hbefore
      refine ⟨entry, hkeep entry hentry, hsame, ?_⟩
      rw [hframe other old hne hold ⟨guard, hphase⟩, hresult]
    · obtain ⟨entry, hentry, hrest⟩ := hbefore
      exact ⟨entry, hkeep entry hentry, hrest⟩

theorem Linked.quiet (h : Linked mapShard store log)
    (hops : store'.ops = Function.update store.ops op (some record'))
    (hclock : store'.clock = store.clock + 1)
    (hcontent : store'.content mapShard = store.content mapShard)
    (hcalled : record'.calledAt < store'.clock)
    (hown : ∀ entry ∈ log, entry.op = op → record'.call = entry.call ∧
      record'.calledAt ≤ entry.point ∧ record'.phase ≠ .called ∧ record'.phase ≠ .missed)
    (hprogress : Progress mapShard store' log op record')
    (hoverflow : ∀ spanId, store.overflow spanId ≠ none → store'.overflow spanId ≠ none) :
    Linked mapShard store' log := by
  apply h.extend hops hclock h.legal h.sorted h.nodup
  · intro entry hentry
    have hpast := h.past entry hentry
    omega
  · rw [hcontent, h.state]
  · exact hcalled
  · exact fun entry hentry => hentry
  · exact fun entry hentry _ => hentry
  · exact hown
  · exact fun point _ => rfl
  · exact hprogress
  · exact fun spanId hsome => .inl (hoverflow spanId hsome)
  · intro other old _ _ _
    rw [hcontent]

theorem content_none (hfast : store.fast record.call.spanId = none)
    (hoverflow : store.overflow record.call.spanId = none) :
    store.content mapShard record.call.spanId = none := by
  rw [content_slow hfast, hoverflow, Option.map_none]

theorem Linked.miss (h : Linked mapShard store log) (hop : store.ops op = some record)
    (hclock : store'.clock = store.clock + 1) (hphase : record.phase = .called)
    (habsent : ¬ Inserts record.call → store.fast record.call.spanId = none)
    (hops : store'.ops = Function.update store.ops op (some { record with phase := .missed }))
    (hcontent : store'.content mapShard = store.content mapShard)
    (hoverflow : store'.overflow = store.overflow) : Linked mapShard store' log := by
  have hcalls := h.calls op record hop
  apply h.quiet hops hclock hcontent
  · change record.calledAt < store'.clock
    omega
  · intro entry hentry hsame
    exact absurd hsame (h.not_mem hop (.inl hphase) entry hentry)
  · by_cases hinserts : Inserts record.call
    · exact .inl hinserts
    by_cases hspilled : store.overflow record.call.spanId = none
    · refine .inr (.inr ⟨store.clock, Nat.le_of_lt hcalls, by omega, ?_⟩)
      have hall : ∀ entry ∈ log, entry.point ≤ store.clock := by
        intro entry hentry
        have hpast := h.past entry hentry
        omega
      rw [Linearizability.upTo_all hall, h.state, content_none (habsent hinserts) hspilled]
    · refine .inr (.inl ?_)
      rwa [hoverflow]
  · intro spanId hsome
    rwa [hoverflow]

/-- On an id that is absent, all but insertions leave the map alone. -/
theorem step_absent {call : Call Data} (hcall : ¬ Inserts call) {map : SpanId → Option Data}
    (hnone : map call.spanId = none) :
    (mapSpec Data).step map call = (.found none, map) := by
  cases call with
  | insert spanId data => exact absurd ⟨spanId, data, rfl⟩ hcall
  | get spanId =>
      simp only [Call.spanId] at hnone
      simp [mapSpec, hnone]
  | getMut spanId updates =>
      have hsame : Function.update map spanId none = map :=
        Function.update_eq_self_iff.2 hnone.symm
      simp only [Call.spanId] at hnone
      simp [mapSpec, hnone, hsame]
  | take spanId =>
      have hsame : Function.update map spanId none = map :=
        Function.update_eq_self_iff.2 hnone.symm
      simp only [Call.spanId] at hnone
      simp [mapSpec, hnone, hsame]

/-- A look-up that missed both tiers goes to the point at which the entry was absent. -/
theorem Linked.absent (h : Linked mapShard store log) (hop : store.ops op = some record)
    (hclock : store'.clock = store.clock + 1) (hphase : record.phase = .missed)
    (hcall : ¬ Inserts record.call) (habsent : store.overflow record.call.spanId = none)
    (hops : store'.ops = Function.update store.ops op
      (some { record with phase := .returned (.found none) store.clock }))
    (hcontent : store'.content mapShard = store.content mapShard)
    (hoverflow : store'.overflow = store.overflow) :
    ∃ log', Linked mapShard store' log' := by
  have hcalls := h.calls op record hop
  have hprogress := h.progress op record hop
  simp only [Progress, hphase] at hprogress
  obtain ⟨point, hcalledAt, hpoint, hnone⟩ :=
    (hprogress.resolve_left hcall).resolve_left (not_not_intro habsent)
  have hstutters : Linearizability.Stutters (mapSpec Data) (fun _ => none) log
      ⟨op, record.call, .found none, point⟩ := by
    have hstep := step_absent hcall hnone
    exact ⟨congrArg Prod.fst hstep, congrArg Prod.snd hstep⟩
  have hnot := h.not_mem hop (.inr hphase)
  refine ⟨Linearizability.place ⟨op, record.call, .found none, point⟩ log, ?_⟩
  apply h.extend hops hclock (hstutters.legal_place h.sorted h.legal)
    (Linearizability.place_sorted h.sorted)
  · refine ((Linearizability.place_perm _ log).map Entry.op).nodup_iff.2 ?_
    rw [List.map_cons, List.nodup_cons]
    refine ⟨?_, h.nodup⟩
    intro hmem
    obtain ⟨entry, hentry, hsame⟩ := List.mem_map.1 hmem
    exact hnot entry hentry hsame
  · intro entry hentry
    rcases Linearizability.mem_place.1 hentry with rfl | hold
    · change point < store'.clock
      omega
    · have hpast := h.past entry hold
      omega
  · rw [hcontent, ← h.state]
    exact hstutters.after_place h.sorted
  · change record.calledAt < store'.clock
    omega
  · exact fun entry hentry => Linearizability.mem_place.2 (.inr hentry)
  · intro entry hentry hne
    rcases Linearizability.mem_place.1 hentry with rfl | hold
    · exact absurd rfl hne
    · exact hold
  · intro entry hentry hsame
    rcases Linearizability.mem_place.1 hentry with rfl | hold
    · exact ⟨rfl, hcalledAt, by simp, by simp⟩
    · exact absurd hsame (hnot entry hold)
  · exact fun time _ => hstutters.upTo_place h.sorted time
  · exact ⟨_, Linearizability.mem_place.2 (.inl rfl), rfl, rfl, Nat.le_of_lt hpoint⟩
  · intro spanId hsome
    left
    rwa [hoverflow]
  · intro other old _ _ _
    rw [hcontent]

/-- An operation takes effect now. -/
theorem Linked.commit (h : Linked mapShard store log) (hop : store.ops op = some record)
    (hclock : store'.clock = store.clock + 1)
    (hphase : record.phase = .called ∨ record.phase = .missed)
    {phase : Phase Data} {result : Result Data}
    (hops : store'.ops = Function.update store.ops op (some { record with phase := phase }))
    (hstep : (mapSpec Data).step (store.content mapShard) record.call =
      (result, store'.content mapShard))
    (hresult : (∃ guard, phase = .holding guard ∧
        result = .found (store'.content mapShard record.call.spanId)) ∨
      phase = .returned result store.clock)
    (hoverflow : ∀ spanId, store.overflow spanId ≠ none →
      store'.overflow spanId ≠ none ∨ store'.content mapShard spanId = none)
    (hframe : ∀ other old, other ≠ op → store.ops other = some old → Holding old →
      store'.content mapShard old.call.spanId = store.content mapShard old.call.spanId) :
    Linked mapShard store' (log ++ [⟨op, record.call, result, store.clock⟩]) := by
  have hcalls := h.calls op record hop
  have hnot := h.not_mem hop hphase
  have hlast : ∀ entry ∈ log, entry.point ≤ store.clock := by
    intro entry hentry
    have hpast := h.past entry hentry
    omega
  have hstate : Linearizability.after (mapSpec Data) (fun _ => none) log =
      store.content mapShard := h.state
  have hsplit : ∀ entry ∈ log ++ [⟨op, record.call, result, store.clock⟩],
      entry ∈ log ∨ entry = ⟨op, record.call, result, store.clock⟩ := by
    intro entry hentry
    simpa using hentry
  apply h.extend hops hclock
  · apply Linearizability.legal_concat h.legal
    rw [hstate, hstep]
  · exact Linearizability.sorted_concat h.sorted hlast
  · rw [List.map_append, List.nodup_append]
    refine ⟨h.nodup, by simp, ?_⟩
    intro other hother last hmem
    obtain ⟨entry, hentry, rfl⟩ := List.mem_map.1 hother
    simp only [List.map_cons, List.map_nil, List.mem_singleton] at hmem
    rw [hmem]
    exact hnot entry hentry
  · intro entry hentry
    rcases hsplit entry hentry with hold | rfl
    · have hpast := h.past entry hold
      omega
    · change store.clock < store'.clock
      omega
  · rw [mapAfter, Linearizability.after_concat, hstate, hstep]
  · change record.calledAt < store'.clock
    omega
  · exact fun entry hentry => List.mem_append_left _ hentry
  · intro entry hentry hne
    rcases hsplit entry hentry with hold | rfl
    · exact hold
    · exact absurd rfl hne
  · intro entry hentry hsame
    rcases hsplit entry hentry with hold | rfl
    · exact absurd hsame (hnot entry hold)
    · refine ⟨rfl, ?_, ?_, ?_⟩
      · change record.calledAt ≤ store.clock
        omega
      all_goals
        rcases hresult with ⟨guard, rfl, -⟩ | rfl <;> simp
  · intro point hpoint
    exact congrArg mapAfter (Linearizability.upTo_concat hpoint)
  · rcases hresult with ⟨guard, rfl, hfound⟩ | rfl
    · exact ⟨⟨op, record.call, result, store.clock⟩, by simp, rfl, hfound⟩
    · exact ⟨⟨op, record.call, result, store.clock⟩, by simp, rfl, rfl, Nat.le_refl _⟩
  · exact hoverflow
  · exact hframe

theorem Linked.use (h : Linked mapShard store log) (hop : store.ops op = some record)
    (hclock : store'.clock = store.clock + 1) (hphase : Holding record) {phase : Phase Data}
    (hops : store'.ops = Function.update store.ops op (some { record with phase := phase }))
    (hcontent : store'.content mapShard = store.content mapShard)
    (hresult : (∃ guard, phase = .holding guard) ∨
      phase = .returned (.found (store.content mapShard record.call.spanId)) store.clock)
    (hoverflow : ∀ spanId, store.overflow spanId ≠ none → store'.overflow spanId ≠ none) :
    Linked mapShard store' log := by
  have hcalls := h.calls op record hop
  have hprogress := h.progress op record hop
  obtain ⟨guard, hguard⟩ := hphase
  simp only [Progress, hguard] at hprogress
  obtain ⟨found, hfound, hsame, hfoundResult⟩ := hprogress
  apply h.quiet hops hclock hcontent
  · change record.calledAt < store'.clock
    omega
  · rintro entry hentry rfl
    obtain ⟨old, hold, hcall, htime, -, -⟩ := h.entries entry hentry
    rw [hop, Option.some.injEq] at hold
    subst hold
    refine ⟨hcall, htime, ?_, ?_⟩ <;> rcases hresult with ⟨guard', rfl⟩ | rfl <;> simp
  · rcases hresult with ⟨guard', rfl⟩ | rfl
    · refine ⟨found, hfound, hsame, ?_⟩
      rw [hcontent]
      exact hfoundResult
    · have hpast := h.past found hfound
      exact ⟨found, hfound, hsame, hfoundResult, by omega⟩
  · exact hoverflow

theorem Linked.act (h : Linked mapShard store log) (hop : store.ops op = some record)
    (hsteps : Steps mapShard store store' op record) : ∃ log', Linked mapShard store' log' := by
  rcases hsteps.move with ⟨hphase, habsent, hops, hcontent, hoverflow⟩ |
    ⟨hphase, hcall, habsent, hops, hcontent, hoverflow⟩ |
    ⟨phase, result, hphase, hops, hstep, hresult, hoverflow, hframe⟩ |
    ⟨phase, hphase, hops, hcontent, hresult, hoverflow⟩
  · exact ⟨log, h.miss hop hsteps.clock hphase habsent hops hcontent hoverflow⟩
  · exact h.absent hop hsteps.clock hphase hcall habsent hops hcontent hoverflow
  · exact ⟨_, h.commit hop hsteps.clock hphase hops hstep hresult hoverflow hframe⟩
  · exact ⟨log, h.use hop hsteps.clock hphase hops hcontent hresult hoverflow⟩

theorem stored_eq (store : Store Data) (spanId : SpanId) :
    store.stored spanId = (store.fast spanId).or (store.overflow spanId) := by
  rcases hindex : (store.active (activeShard spanId)).slots.index spanId with _ | index
  · simp [stored, fast, ActiveSlots.lookup, hindex]
  · obtain ⟨entry, hslot, -⟩ := ActiveSlots.index_some hindex
    simp [stored, fast, ActiveSlots.lookup, hindex, hslot]

theorem pending_of_inserting (h : store.Consistent mapShard none) {spanId : SpanId}
    (hinserting : store.inserting spanId = false) (hop : store.ops op = some record) :
    ¬ Pending record spanId := by
  rintro ⟨⟨data, hcall⟩, hphase⟩
  have hlt : op < store.nextOp := by
    by_contra hge
    simp [h.fresh op (Nat.le_of_not_lt hge)] at hop
  rw [inserting, List.any_eq_false] at hinserting
  have hnot := hinserting op (List.mem_range.2 hlt)
  obtain ⟨call, calledAt, phase⟩ := record
  obtain rfl : call = .insert spanId data := hcall
  rcases hphase with hphase | hphase <;> obtain rfl := hphase <;> simp [hop] at hnot

theorem Consistent.call {call : Call Data} (h : store.Consistent mapShard none)
    (hstep : store.step mapShard (.call call) = some store') :
    store'.Consistent mapShard none := by
  by_cases hallowed : store.allowed call = true
  · simp only [step, hallowed, if_true, Option.some.injEq] at hstep
    subst hstep
    have hsplit : ∀ other old,
        Function.update store.ops store.nextOp (some ⟨call, store.clock, .called⟩) other =
          some old → (other = store.nextOp ∧ old = ⟨call, store.clock, .called⟩) ∨
            (other ≠ store.nextOp ∧ store.ops other = some old) := by
      intro other old hother
      by_cases hsame : other = store.nextOp
      · subst hsame
        rw [Function.update_self, Option.some.injEq] at hother
        exact .inl ⟨rfl, hother.symm⟩
      · rw [Function.update_of_ne hsame] at hother
        exact .inr ⟨hsame, hother⟩
    -- What the callers promise of a new entry.
    have hnew : ∀ spanId, Pending ⟨call, store.clock, .called⟩ spanId → spanId ≠ 0 ∧
        store.fast spanId = none ∧ store.overflow spanId = none ∧
          store.inserting spanId = false := by
      rintro spanId ⟨⟨data, hcall⟩, -⟩
      obtain rfl : call = .insert spanId data := hcall
      simp only [allowed, stored_eq, Bool.and_eq_true, bne_iff_ne, Option.isNone_iff_eq_none,
        Option.or_eq_none_iff, Bool.not_eq_true'] at hallowed
      exact ⟨hallowed.1.1, hallowed.1.2.1, hallowed.1.2.2, hallowed.2⟩
    refine ⟨h.distinct, h.home, h.apart, h.exclusive, ?_, ?_, ?_, ?_, h.intact⟩
    · intro other hother
      have hlt : store.nextOp < other := hother
      change Function.update store.ops store.nextOp _ other = none
      rw [Function.update_of_ne (by omega)]
      exact h.fresh other (by omega)
    · intro other old _ hother
      rcases hsplit other old hother with ⟨-, rfl⟩ | ⟨-, hold⟩
      · trivial
      · exact h.locks other old (by simp) hold
    · intro other old spanId _ hother hpending
      rcases hsplit other old hother with ⟨-, rfl⟩ | ⟨-, hold⟩
      · obtain ⟨hzero, hfast, hoverflow, -⟩ := hnew spanId hpending
        exact ⟨hzero, hfast, hoverflow⟩
      · exact h.pending other old spanId (by simp) hold hpending
    · intro first second one two spanId hone htwo hfirst hsecond
      rcases hsplit first one hone with ⟨rfl, rfl⟩ | ⟨-, hone'⟩ <;>
        rcases hsplit second two htwo with ⟨rfl, rfl⟩ | ⟨-, htwo'⟩
      · rfl
      · exact absurd hsecond (pending_of_inserting h (hnew spanId hfirst).2.2.2 htwo')
      · exact absurd hfirst (pending_of_inserting h (hnew spanId hsecond).2.2.2 hone')
      · exact h.unique first second one two spanId hone' htwo' hfirst hsecond
  · simp [step, hallowed] at hstep

theorem Linked.call {call : Call Data} (h : Linked mapShard store log)
    (hconsistent : store.Consistent mapShard none)
    (hstep : store.step mapShard (.call call) = some store') : Linked mapShard store' log := by
  by_cases hallowed : store.allowed call = true
  · simp only [step, hallowed, if_true, Option.some.injEq] at hstep
    have hops : store'.ops =
        Function.update store.ops store.nextOp (some ⟨call, store.clock, .called⟩) := by
      rw [← hstep]
    have hclock : store'.clock = store.clock + 1 := by rw [← hstep]
    have hcontent : store'.content mapShard = store.content mapShard := by
      rw [← hstep]
      rfl
    apply h.quiet hops hclock hcontent
    · rw [hclock]
      exact Nat.lt_succ_self _
    · intro entry hentry hsame
      obtain ⟨old, hold, -⟩ := h.entries entry hentry
      rw [hsame, hconsistent.fresh _ (Nat.le_refl _)] at hold
      cases hold
    · trivial
    · intro spanId hsome
      rwa [← hstep]
  · simp [step, hallowed] at hstep

theorem new_consistent : (new : Store Data).Consistent mapShard none := by
  refine ⟨?_, ?_, fun _ _ => rfl, fun _ _ => rfl, fun _ _ => rfl, ?_, ?_, ?_, rfl⟩
  · intro shard index other entry entry' hslot
    cases hslot
  · intro shard index entry hslot
    cases hslot
  · intro op record _ hop
    cases hop
  · intro op record spanId _ hop
    cases hop
  · intro op other record record' spanId hop
    cases hop

theorem new_linked : Linked mapShard (new : Store Data) [] := by
  refine ⟨trivial, List.Pairwise.nil, List.nodup_nil, ?_, ?_, ?_, ?_, ?_⟩
  · intro entry hentry
    cases hentry
  · funext spanId
    rfl
  · intro op record hop
    cases hop
  · intro entry hentry
    cases hentry
  · intro op record hop
    cases hop

/-- The run lemma. -/
theorem run_linked {labels : List (Label Data)} (hconsistent : store.Consistent mapShard none)
    (hlinked : Linked mapShard store log) (hrun : run mapShard labels store = some store') :
    store'.Consistent mapShard none ∧ ∃ log', Linked mapShard store' log' := by
  induction labels generalizing store log with
  | nil =>
      obtain rfl : store = store' := Option.some.inj hrun
      exact ⟨hconsistent, log, hlinked⟩
  | cons label labels ih =>
      rw [run, List.foldlM_cons, Option.bind_eq_bind, Option.bind_eq_some_iff] at hrun
      obtain ⟨next, hstep, hrest⟩ := hrun
      cases label with
      | call call =>
          exact ih (hconsistent.call hstep) (hlinked.call hconsistent hstep) hrest
      | act op =>
          rcases hop : store.ops op with _ | record
          · simp [step, hop] at hstep
          · have hsteps := act_steps hconsistent hop hstep
            obtain ⟨log', hlog'⟩ := hlinked.act hop hsteps
            exact ih hsteps.consistent hlog' hrest

/-- What the callers saw. -/
def history (store : Store Data) : History (Call Data) (Result Data) where
  called := fun op => (store.ops op).map fun record => (record.call, record.calledAt)
  returned := fun op =>
    match store.ops op with
    | some ⟨_, _, .returned result time⟩ => some (result, time)
    | _ => none

theorem Linked.linearizes (h : Linked mapShard store log) :
    Linearizes (mapSpec Data) (fun _ => none) store.history log := by
  apply Linearizability.linearizes_of_points h.legal h.sorted h.nodup
  · intro entry hentry
    obtain ⟨record, hop, hcall, htime, -, -⟩ := h.entries entry hentry
    exact ⟨record.calledAt, by simp [history, hop, hcall], htime⟩
  · intro op result time hreturned
    rcases hop : store.ops op with _ | ⟨call, calledAt, phase⟩
    · simp [history, hop] at hreturned
    · have hprogress := h.progress op _ hop
      rcases phase with _ | _ | guard | ⟨result', time'⟩ <;>
        simp only [history, hop, reduceCtorEq, Option.some.injEq, Prod.mk.injEq] at hreturned
      obtain ⟨rfl, rfl⟩ := hreturned
      exact hprogress

/-- An id has at most one place among the fast slots and the overflow map. -/
structure OnePlace (store : Store Data) : Prop where
  slots : ∀ shard shard' index index' entry entry',
    (store.active shard).slots index = some entry →
    (store.active shard').slots index' = some entry' → entry.spanId = entry'.spanId →
    shard = shard' ∧ index = index'
  tiers : ∀ shard index entry, (store.active shard).slots index = some entry →
    store.overflow entry.spanId = none

theorem Consistent.onePlace (h : store.Consistent mapShard none) : store.OnePlace := by
  constructor
  · intro shard shard' index index' entry entry' hslot hslot' hsame
    obtain rfl : shard = shard' := by
      rw [← h.home shard index entry hslot, ← h.home shard' index' entry' hslot', hsame]
    exact ⟨rfl, h.distinct shard index index' entry entry' hslot hslot' hsame⟩
  · intro shard index entry hslot
    apply h.apart
    obtain rfl := h.home shard index entry hslot
    simp [fast_of_slot h hslot rfl]

end Logs

end Store

end TracingPerfetto.SpanStore
