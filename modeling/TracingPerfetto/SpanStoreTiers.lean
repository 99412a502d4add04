import TracingPerfetto.SpanStore
import Mathlib.Data.List.Basic

/-!
The two tiers of the span store keep apart. What an operation relies on between its
critical sections (`Holds`) is kept by all other operations, and what the store stands
for (`content`) already shows the updates that the owner of a lock will make.
-/

namespace TracingPerfetto.SpanStore

namespace ActiveSlots

variable {Data : Type} {slots : ActiveSlots Data} {spanId : SpanId}

def lookup (slots : ActiveSlots Data) (spanId : SpanId) : Option Data :=
  (slots.index spanId).bind fun index => (slots index).map ActiveEntry.data

def Distinct (slots : ActiveSlots Data) : Prop :=
  ∀ index other entry entry', slots index = some entry → slots other = some entry' →
    entry.spanId = entry'.spanId → index = other

theorem index_some {index : Fin fastSlots} (h : slots.index spanId = some index) :
    ∃ entry, slots index = some entry ∧ entry.spanId = spanId := by
  have hfound := List.find?_some h
  rcases hslot : slots index with _ | entry
  · simp [hslot] at hfound
  · refine ⟨entry, rfl, ?_⟩
    simpa [hslot] using hfound

theorem index_none (h : slots.index spanId = none) (index : Fin fastSlots)
    {entry : ActiveEntry Data} (hslot : slots index = some entry) : entry.spanId ≠ spanId := by
  have hnone := List.find?_eq_none.1 h index (List.mem_finRange index)
  simpa [hslot] using hnone

theorem lookup_none_iff : slots.lookup spanId = none ↔ slots.index spanId = none := by
  constructor
  · intro h
    rcases hindex : slots.index spanId with _ | index
    · rfl
    · obtain ⟨entry, hentry, -⟩ := index_some hindex
      simp [lookup, hindex, hentry] at h
  · intro h
    simp [lookup, h]

theorem lookup_some_iff (h : slots.Distinct) {data : Data} :
    slots.lookup spanId = some data ↔
      ∃ index entry, slots index = some entry ∧ entry.spanId = spanId ∧ entry.data = data := by
  constructor
  · intro hlookup
    rcases hindex : slots.index spanId with _ | index
    · simp [lookup, hindex] at hlookup
    · obtain ⟨entry, hentry, hspan⟩ := index_some hindex
      simp only [lookup, hindex, hentry, Option.bind_some, Option.map_some,
        Option.some.injEq] at hlookup
      exact ⟨index, entry, hentry, hspan, hlookup⟩
  · rintro ⟨index, entry, hentry, hspan, rfl⟩
    rcases hindex : slots.index spanId with _ | found
    · exact absurd hspan (index_none hindex index hentry)
    · obtain ⟨other, hother, hsame⟩ := index_some hindex
      obtain rfl := h index found entry other hentry hother (hspan.trans hsame.symm)
      rw [hentry] at hother
      obtain rfl := Option.some.inj hother
      simp [lookup, hindex, hentry]

/-- One slot gets an entry; no other slot has its id. -/
theorem distinct_put (h : slots.Distinct) {index : Fin fastSlots} {entry : ActiveEntry Data}
    (hothers : ∀ other entry', other ≠ index → slots other = some entry' →
      entry'.spanId ≠ entry.spanId) :
    Distinct (Function.update slots index (some entry)) := by
  intro first second one two hone htwo hsame
  by_cases hfirst : first = index
  · subst hfirst
    by_cases hsecond : second = first
    · exact hsecond.symm
    · rw [Function.update_self, Option.some.injEq] at hone
      rw [Function.update_of_ne hsecond] at htwo
      subst hone
      exact absurd hsame.symm (hothers second two hsecond htwo)
  · rw [Function.update_of_ne hfirst] at hone
    by_cases hsecond : second = index
    · subst hsecond
      rw [Function.update_self, Option.some.injEq] at htwo
      subst htwo
      exact absurd hsame (hothers first one hfirst hone)
    · rw [Function.update_of_ne hsecond] at htwo
      exact h first second one two hone htwo hsame

theorem lookup_put (h : slots.Distinct) {index : Fin fastSlots} {entry : ActiveEntry Data}
    (hothers : ∀ other entry', other ≠ index → slots other = some entry' →
      entry'.spanId ≠ entry.spanId)
    (hown : ∀ entry', slots index = some entry' → entry'.spanId = entry.spanId) :
    lookup (Function.update slots index (some entry)) =
      Function.update slots.lookup entry.spanId (some entry.data) := by
  funext spanId
  by_cases hspan : spanId = entry.spanId
  · subst hspan
    rw [Function.update_self, lookup_some_iff (distinct_put h hothers)]
    exact ⟨index, entry, Function.update_self .., rfl, rfl⟩
  · rw [Function.update_of_ne hspan]
    ext data
    rw [lookup_some_iff (distinct_put h hothers), lookup_some_iff h]
    constructor
    · rintro ⟨other, entry', hentry, hsame, hdata⟩
      by_cases hother : other = index
      · subst hother
        rw [Function.update_self, Option.some.injEq] at hentry
        subst hentry
        exact absurd hsame.symm hspan
      · rw [Function.update_of_ne hother] at hentry
        exact ⟨other, entry', hentry, hsame, hdata⟩
    · rintro ⟨other, entry', hentry, hsame, hdata⟩
      have hother : other ≠ index := by
        rintro rfl
        exact hspan (hsame.symm.trans (hown entry' hentry))
      exact ⟨other, entry', by rw [Function.update_of_ne hother, hentry], hsame, hdata⟩

theorem distinct_remove (h : slots.Distinct) (index : Fin fastSlots) :
    Distinct (Function.update slots index none) := by
  intro first second one two hone htwo hsame
  by_cases hfirst : first = index
  · subst hfirst
    simp at hone
  by_cases hsecond : second = index
  · subst hsecond
    simp at htwo
  rw [Function.update_of_ne hfirst] at hone
  rw [Function.update_of_ne hsecond] at htwo
  exact h first second one two hone htwo hsame

theorem lookup_remove (h : slots.Distinct) {index : Fin fastSlots} {entry : ActiveEntry Data}
    (hslot : slots index = some entry) :
    lookup (Function.update slots index none) =
      Function.update slots.lookup entry.spanId none := by
  funext spanId
  ext data
  rw [lookup_some_iff (distinct_remove h index)]
  by_cases hspan : spanId = entry.spanId
  · subst hspan
    rw [Function.update_self]
    constructor
    · rintro ⟨other, entry', hentry, hsame, -⟩
      by_cases hother : other = index
      · subst hother
        simp at hentry
      · rw [Function.update_of_ne hother] at hentry
        exact absurd (h other index entry' entry hentry hslot hsame) hother
    · simp
  · rw [Function.update_of_ne hspan, lookup_some_iff h]
    constructor
    · rintro ⟨other, entry', hentry, hsame, hdata⟩
      have hother : other ≠ index := by
        rintro rfl
        simp at hentry
      rw [Function.update_of_ne hother] at hentry
      exact ⟨other, entry', hentry, hsame, hdata⟩
    · rintro ⟨other, entry', hentry, hsame, hdata⟩
      have hother : other ≠ index := by
        rintro rfl
        rw [hslot, Option.some.injEq] at hentry
        subst hentry
        exact hspan hsame.symm
      exact ⟨other, entry', by rw [Function.update_of_ne hother, hentry], hsame, hdata⟩

theorem insert_some {data : Data} {next : ActiveSlots Data}
    (h : slots.insert spanId data = some next) :
    ∃ index, slots index = none ∧ next = Function.update slots index (some ⟨spanId, data⟩) := by
  rcases hfree : (List.finRange fastSlots).find? fun index => (slots index).isNone with _ | index
  · simp [insert, hfree] at h
  · simp only [insert, hfree, Option.map_some, Option.some.injEq] at h
    have hnone := List.find?_some hfree
    exact ⟨index, by simpa using hnone, h.symm⟩

theorem take_some {data : Data} {next : ActiveSlots Data}
    (h : slots.take spanId = some (data, next)) :
    ∃ index entry, slots index = some entry ∧ entry.spanId = spanId ∧ entry.data = data ∧
      next = Function.update slots index none := by
  rcases hindex : slots.index spanId with _ | index
  · simp [take, hindex] at h
  · obtain ⟨entry, hentry, hspan⟩ := index_some hindex
    simp only [take, hindex, hentry, Option.bind_eq_bind, Option.bind_some, Option.some.injEq,
      Prod.mk.injEq] at h
    exact ⟨index, entry, hentry, hspan, h.1, h.2.symm⟩

theorem take_none (h : slots.take spanId = none) : slots.lookup spanId = none := by
  rw [lookup_none_iff]
  rcases hindex : slots.index spanId with _ | index
  · rfl
  · obtain ⟨entry, hentry, -⟩ := index_some hindex
    simp [take, hindex, hentry] at h

end ActiveSlots

/-- The data of an id with the updates that the owner of the lock has still to make. -/
def settle {Data : Type} (holder : Option (Holder Data)) (spanId : SpanId) (data : Data) : Data :=
  match holder with
  | some holder =>
      if holder.spanId = spanId then holder.updates.foldl (fun data update => update data) data
      else data
  | none => data

def Owned {Data : Type} (holder : Option (Holder Data)) (spanId : SpanId) : Prop :=
  ∀ owner, holder = some owner → owner.spanId = spanId

theorem owned_none {Data : Type} (spanId : SpanId) :
    Owned (none : Option (Holder Data)) spanId := by
  intro owner h
  cases h

theorem owned_some {Data : Type} {holder : Holder Data} {spanId : SpanId}
    (h : holder.spanId = spanId) : Owned (some holder) spanId := by
  rintro owner ⟨⟩
  exact h

theorem settle_other {Data : Type} {holder : Option (Holder Data)} {spanId other : SpanId}
    (h : Owned holder spanId) (hother : other ≠ spanId) (data : Data) :
    settle holder other data = data := by
  rcases holder with _ | holder
  · rfl
  · have hspan := h holder rfl
    have hne : holder.spanId ≠ other := fun heq => hother (heq.symm.trans hspan)
    simp [settle, hne]

@[simp] theorem settle_own {Data : Type} (op : Nat) (spanId : SpanId)
    (updates : List (Data → Data)) (data : Data) :
    settle (some ⟨op, spanId, updates⟩) spanId data =
      updates.foldl (fun data update => update data) data := by
  simp [settle]

@[simp] theorem settle_none {Data : Type} (spanId : SpanId) (data : Data) :
    settle none spanId data = data := rfl

namespace Store

section Content

variable {Data : Type} (mapShard : SpanId → Nat) (store : Store Data)

def fast (spanId : SpanId) : Option Data :=
  (store.active (activeShard spanId)).slots.lookup spanId

/-- The map that the store stands for. -/
def content (spanId : SpanId) : Option Data :=
  ((store.fast spanId).map (settle (store.active (activeShard spanId)).holder spanId)).or
    ((store.overflow spanId).map (settle (store.writer (mapShard spanId)) spanId))

/-- The map's shard of an id, after a use of it. -/
def setOverflow (spanId : SpanId) (value : Option Data) (holder : Option (Holder Data))
    (ids : List Nat) : Store Data :=
  { store with
    overflow := Function.update store.overflow spanId value
    writer := Function.update store.writer (mapShard spanId) holder
    readers := Function.update store.readers (mapShard spanId) ids }

/-- What an operation relies on between its steps. -/
def Holds (op : Nat) (record : Op Data) : Prop :=
  match record.phase with
  | .holding (.fast shard index) => shard = activeShard record.call.spanId ∧
      (∃ entry, (store.active shard).slots index = some entry ∧
        entry.spanId = record.call.spanId) ∧
      ∃ updates, (store.active shard).holder = some ⟨op, record.call.spanId, updates⟩
  | .holding .shared => op ∈ store.readers (mapShard record.call.spanId) ∧
      store.overflow record.call.spanId ≠ none
  | .holding .exclusive => store.overflow record.call.spanId ≠ none ∧
      ∃ updates, store.writer (mapShard record.call.spanId) =
        some ⟨op, record.call.spanId, updates⟩
  | _ => True

/-- An insertion that has not happened yet. -/
def Pending (record : Op Data) (spanId : SpanId) : Prop :=
  (∃ data, record.call = .insert spanId data) ∧ (record.phase = .called ∨ record.phase = .missed)

/-- The invariant; one operation may be exempt while it makes its step. -/
structure Consistent (exempt : Option Nat) : Prop where
  distinct : ∀ shard, (store.active shard).slots.Distinct
  home : ∀ shard index entry, (store.active shard).slots index = some entry →
    activeShard entry.spanId = shard
  apart : ∀ spanId, store.fast spanId ≠ none → store.overflow spanId = none
  exclusive : ∀ shard, store.writer shard ≠ none → store.readers shard = []
  fresh : ∀ op, store.nextOp ≤ op → store.ops op = none
  locks : ∀ op record, exempt ≠ some op → store.ops op = some record →
    store.Holds mapShard op record
  pending : ∀ op record spanId, exempt ≠ some op → store.ops op = some record →
    Pending record spanId → spanId ≠ 0 ∧ store.fast spanId = none ∧ store.overflow spanId = none
  unique : ∀ op other record record' spanId, store.ops op = some record →
    store.ops other = some record' → Pending record spanId → Pending record' spanId → op = other
  intact : store.failures = []

end Content

section Steps

variable {Data : Type} {mapShard : SpanId → Nat} {store : Store Data}

theorem Consistent.exempting (h : store.Consistent mapShard none) (op : Nat) :
    store.Consistent mapShard (some op) := by
  refine ⟨h.distinct, h.home, h.apart, h.exclusive, h.fresh, ?_, ?_, h.unique, h.intact⟩
  · intro other record _ hop
    exact h.locks other record (by simp) hop
  · intro other record spanId _ hop
    exact h.pending other record spanId (by simp) hop

/-- The step of the exempt operation ends. -/
theorem Consistent.goto {op : Nat} {record : Op Data} {phase : Phase Data}
    (h : store.Consistent mapShard (some op)) (hop : store.ops op = some record)
    (hholds : store.Holds mapShard op { record with phase := phase })
    (hpending : ∀ spanId, Pending { record with phase := phase } spanId →
      Pending record spanId ∧ spanId ≠ 0 ∧ store.fast spanId = none ∧
        store.overflow spanId = none) :
    (store.goto op record phase).Consistent mapShard none := by
  have hops : ∀ other next, (store.goto op record phase).ops other = some next →
      (other = op ∧ next = { record with phase := phase }) ∨
        (other ≠ op ∧ store.ops other = some next) := by
    intro other next hother
    by_cases hsame : other = op
    · subst hsame
      simp only [Store.goto, Function.update_self, Option.some.injEq] at hother
      exact .inl ⟨rfl, hother.symm⟩
    · simp only [Store.goto, Function.update_of_ne hsame] at hother
      exact .inr ⟨hsame, hother⟩
  -- A pending insertion was pending before.
  have hback : ∀ other next spanId, (store.goto op record phase).ops other = some next →
      Pending next spanId → ∃ old, store.ops other = some old ∧ Pending old spanId := by
    intro other next spanId hother hnext
    rcases hops other next hother with ⟨rfl, rfl⟩ | ⟨-, hold⟩
    · exact ⟨record, hop, (hpending spanId hnext).1⟩
    · exact ⟨next, hold, hnext⟩
  refine ⟨h.distinct, h.home, h.apart, h.exclusive, ?_, ?_, ?_, ?_, h.intact⟩
  · intro other hother
    have hne : other ≠ op := by
      rintro rfl
      simp [h.fresh other hother] at hop
    simp only [Store.goto, Function.update_of_ne hne]
    exact h.fresh other hother
  · intro other next _ hother
    rcases hops other next hother with ⟨rfl, rfl⟩ | ⟨hne, hold⟩
    · exact hholds
    · exact h.locks other next (by simpa using Ne.symm hne) hold
  · intro other next spanId _ hother hnext
    rcases hops other next hother with ⟨rfl, rfl⟩ | ⟨hne, hold⟩
    · exact (hpending spanId hnext).2
    · exact h.pending other next spanId (by simpa using Ne.symm hne) hold hnext
  · intro first second one two spanId hfirst hsecond hone htwo
    obtain ⟨one', hfirst', hone'⟩ := hback first one spanId hfirst hone
    obtain ⟨two', hsecond', htwo'⟩ := hback second two spanId hsecond htwo
    exact h.unique first second one' two' spanId hfirst' hsecond' hone' htwo'

variable {spanId : SpanId} {slots : ActiveSlots Data} {holder : Option (Holder Data)}
  {value : Option Data}

theorem fast_setShard (holder : Option (Holder Data)) (hlookup : slots.lookup = Function.update
    (store.active (activeShard spanId)).slots.lookup spanId value) :
    (store.setShard (activeShard spanId) ⟨slots, holder⟩).fast =
      Function.update store.fast spanId value := by
  funext other
  by_cases hshard : activeShard other = activeShard spanId
  · simp only [fast, setShard, hshard, Function.update_self, hlookup]
    by_cases hother : other = spanId
    · simp [hother]
    · simp [hother, fast, hshard]
  · have hother : other ≠ spanId := fun heq => hshard (by rw [heq])
    simp [fast, setShard, hshard, hother]

theorem content_setShard (hlookup : slots.lookup = Function.update
    (store.active (activeShard spanId)).slots.lookup spanId value)
    (hbefore : Owned (store.active (activeShard spanId)).holder spanId)
    (hafter : Owned holder spanId) :
    (store.setShard (activeShard spanId) ⟨slots, holder⟩).content mapShard =
      Function.update (store.content mapShard) spanId ((value.map (settle holder spanId)).or
        ((store.overflow spanId).map (settle (store.writer (mapShard spanId)) spanId))) := by
  funext other
  rw [content, fast_setShard holder hlookup]
  by_cases hother : other = spanId
  · simp [hother, setShard]
  · simp only [Function.update_of_ne hother, content]
    congr 1
    by_cases hshard : activeShard other = activeShard spanId
    · simp only [setShard, hshard, Function.update_self]
      congr 1
      funext data
      rw [settle_other hafter hother, settle_other hbefore hother]
    · simp [setShard, hshard]

@[simp] theorem content_goto (op : Nat) (record : Op Data) (phase : Phase Data) :
    (store.goto op record phase).content mapShard = store.content mapShard := rfl

theorem content_setOverflow {ids : List Nat}
    (hbefore : Owned (store.writer (mapShard spanId)) spanId) (hafter : Owned holder spanId) :
    (store.setOverflow mapShard spanId value holder ids).content mapShard =
      Function.update (store.content mapShard) spanId
        (((store.fast spanId).map (settle (store.active (activeShard spanId)).holder spanId)).or
          (value.map (settle holder spanId))) := by
  funext other
  by_cases hother : other = spanId
  · simp [hother, setOverflow, content, fast]
  · simp only [content, setOverflow, fast, Function.update_of_ne hother]
    congr 1
    by_cases hshard : mapShard other = mapShard spanId
    · simp only [hshard, Function.update_self]
      congr 1
      funext data
      rw [settle_other hafter hother, settle_other hbefore hother]
    · simp [hshard]

/-- No other insertion of the id is under way. -/
def Alone (store : Store Data) (op : Nat) (spanId : SpanId) : Prop :=
  ∀ other record, other ≠ op → store.ops other = some record → ¬ Pending record spanId

/-- No other operation has the fast shard. -/
def FreeFast (store : Store Data) (op : Nat) (shard : Nat) : Prop :=
  ∀ other record index, other ≠ op → store.ops other = some record →
    record.phase ≠ .holding (.fast shard index)

theorem Consistent.setShard {op : Nat} (h : store.Consistent mapShard (some op))
    (hfree : store.FreeFast op (activeShard spanId)) (hdistinct : slots.Distinct)
    (hhome : ∀ index entry, slots index = some entry →
      activeShard entry.spanId = activeShard spanId)
    (hlookup : slots.lookup = Function.update
      (store.active (activeShard spanId)).slots.lookup spanId value)
    (hvalue : value ≠ none → store.overflow spanId = none ∧ store.Alone op spanId) :
    (store.setShard (activeShard spanId) ⟨slots, holder⟩).Consistent mapShard (some op) := by
  have hfast := fast_setShard holder hlookup
  refine ⟨?_, ?_, ?_, h.exclusive, h.fresh, ?_, ?_, h.unique, h.intact⟩
  · intro shard
    by_cases hshard : shard = activeShard spanId
    · simpa [hshard, Store.setShard] using hdistinct
    · simpa [hshard, Store.setShard] using h.distinct shard
  · intro shard index entry hentry
    by_cases hshard : shard = activeShard spanId
    · subst hshard
      simp only [Store.setShard, Function.update_self] at hentry
      exact hhome index entry hentry
    · simp only [Store.setShard, Function.update_of_ne hshard] at hentry
      exact h.home shard index entry hentry
  · intro other hother
    rw [hfast] at hother
    by_cases hsame : other = spanId
    · subst hsame
      rw [Function.update_self] at hother
      exact (hvalue hother).1
    · rw [Function.update_of_ne hsame] at hother
      exact h.apart other hother
  · intro other record hne hother
    have hholds := h.locks other record hne hother
    rcases hphase : record.phase with _ | _ | (⟨shard, index⟩ | _ | _) | _ <;>
      simp only [Holds, hphase] at hholds ⊢
    · have hshard : shard ≠ activeShard spanId := by
        rintro rfl
        exact hfree other record index (by rintro rfl; exact hne rfl) hother hphase
      simpa [Store.setShard, hshard] using hholds
    · exact hholds
    · exact hholds
  · intro other record pendingId hne hother hpending
    obtain ⟨hzero, hnone, hoverflow⟩ := h.pending other record pendingId hne hother hpending
    refine ⟨hzero, ?_, hoverflow⟩
    rw [hfast]
    by_cases hsame : pendingId = spanId
    · subst hsame
      rw [Function.update_self]
      by_contra hsome
      exact (hvalue hsome).2 other record (by rintro rfl; exact hne rfl) hother hpending
    · rw [Function.update_of_ne hsame, hnone]

/-- No other operation has a lock on the map's shard that stands against the change. -/
def FreeSlow (mapShard : SpanId → Nat) (store : Store Data) (op : Nat) (spanId : SpanId)
    (value : Option Data) (ids : List Nat) : Prop :=
  ∀ other record, other ≠ op → store.ops other = some record →
    mapShard record.call.spanId = mapShard spanId →
    record.phase ≠ .holding .exclusive ∧ (record.phase = .holding .shared →
      other ∈ ids ∧ (record.call.spanId = spanId → value ≠ none))

theorem Consistent.setOverflow {op : Nat} {ids : List Nat}
    (h : store.Consistent mapShard (some op))
    (hfree : store.FreeSlow mapShard op spanId value ids)
    (hexclusive : holder ≠ none → ids = [])
    (hvalue : value ≠ none → store.fast spanId = none ∧ store.Alone op spanId) :
    (store.setOverflow mapShard spanId value holder ids).Consistent mapShard (some op) := by
  refine ⟨h.distinct, h.home, ?_, ?_, h.fresh, ?_, ?_, h.unique, h.intact⟩
  · intro other hother
    by_cases hsame : other = spanId
    · subst hsame
      simp only [Store.setOverflow, Function.update_self]
      by_contra hsome
      exact hother (hvalue hsome).1
    · simpa [Store.setOverflow, hsame] using h.apart other hother
  · intro shard hshard
    by_cases hsame : shard = mapShard spanId
    · subst hsame
      simp only [Store.setOverflow, Function.update_self] at hshard ⊢
      exact hexclusive hshard
    · simp only [Store.setOverflow, Function.update_of_ne hsame] at hshard ⊢
      exact h.exclusive shard hshard
  · intro other record hne hother
    have hholds := h.locks other record hne hother
    have hother' : other ≠ op := by
      rintro rfl
      exact hne rfl
    by_cases hshard : mapShard record.call.spanId = mapShard spanId
    · obtain ⟨hnot, hshared⟩ := hfree other record hother' hother hshard
      rcases hphase : record.phase with _ | _ | (⟨shard, index⟩ | _ | _) | _ <;>
        simp only [Holds, hphase] at hholds ⊢
      · exact hholds
      · obtain ⟨hmem, hsome⟩ := hshared hphase
        simp only [Store.setOverflow, hshard, Function.update_self]
        refine ⟨hmem, ?_⟩
        by_cases hsame : record.call.spanId = spanId
        · simpa [hsame] using hsome hsame
        · simpa [hsame] using hholds.2
      · exact absurd hphase hnot
    · have hspan : record.call.spanId ≠ spanId := fun heq => hshard (by rw [heq])
      simpa [Holds, Store.setOverflow, hshard, hspan] using hholds
  · intro other record pendingId hne hother hpending
    obtain ⟨hzero, hnone, hoverflow⟩ := h.pending other record pendingId hne hother hpending
    refine ⟨hzero, hnone, ?_⟩
    by_cases hsame : pendingId = spanId
    · subst hsame
      simp only [Store.setOverflow, Function.update_self]
      by_contra hsome
      exact (hvalue hsome).2 other record (by rintro rfl; exact hne rfl) hother hpending
    · simpa [Store.setOverflow, hsame] using hoverflow

end Steps

end Store

end TracingPerfetto.SpanStore
