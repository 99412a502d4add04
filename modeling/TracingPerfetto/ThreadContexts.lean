import Mathlib.Data.List.Nodup

/-!
The contexts of one thread and the guards on them, for any number of layers. Other
threads create and drop layers at any time, also between the reads of the cleanup
that makes room for a new context.
-/

namespace TracingPerfetto.ThreadContexts

/-- An `Inner` and the number of `Arc`s that refer to it. -/
structure Inner where
  id : Nat
  strong : Nat
  deriving DecidableEq, Repr

/-- A boxed `ThreadCtx` under its key. `inner` is a `Weak` reference. -/
structure ThreadCtx where
  key : Nat
  address : Nat
  inner : Nat
  borrowed : Bool
  deriving DecidableEq, Repr

/-- A guard holds the address of its context and borrows an `Arc` of its layer. -/
structure ThreadCtxGuard where
  layer : Nat
  context : Nat
  deriving DecidableEq, Repr

/-- `acquiring` is the layer that the thread inserts a context for, with the position
that the cleanup has come to; `THREAD_CTXS` is borrowed meanwhile. Layers are known by
their position, ids are drawn from a counter of 64 bits that does not come around. -/
structure State where
  nextLayerId : Nat
  layers : List Inner
  contexts : List ThreadCtx
  guards : List ThreadCtxGuard
  acquiring : Option (Nat × Nat)
  exited : Bool
  deriving DecidableEq, Repr

inductive Label where
  | create
  | clone (layer : Nat)
  | drop (layer : Nat)
  | acquire (layer : Nat) (hasError : Bool)
  | retain
  | push (address : Nat)
  | release (guard : ThreadCtxGuard)
  | exit
  deriving DecidableEq, Repr

def State.new : State := ⟨1, [], [], [], none, false⟩

/-- A write to `borrowed` through a pointer. -/
def setBorrowed (address : Nat) (borrowed : Bool) (contexts : List ThreadCtx) :
    List ThreadCtx :=
  contexts.map fun context =>
    if context.address = address then { context with borrowed := borrowed } else context

namespace State

variable (state : State)

def setStrong (layer strong : Nat) : State :=
  { state with layers := state.layers.modify layer fun inner => { inner with strong := strong } }

/-- Some guard, or the `acquire` in progress, borrows an `Arc` of the layer. -/
def lends (layer : Nat) : Bool :=
  state.guards.any (fun guard => guard.layer == layer) ||
    state.acquiring.any fun acquiring => acquiring.1 == layer

/-- The end of `acquire`, with the context that was found or inserted. -/
def borrow (layer : Nat) (context : ThreadCtx) : State :=
  if context.borrowed then state
  else { state with
    contexts := setBorrowed context.address true state.contexts
    guards := ⟨layer, context.address⟩ :: state.guards }

/-- `acquire` up to the insertion of a context. -/
def acquire (layer : Nat) (inner : Inner) (hasError : Bool) : State :=
  if hasError || state.exited || state.acquiring.isSome then state
  else match state.contexts.find? fun context => context.key == inner.id with
    | some context => state.borrow layer context
    | none => { state with acquiring := some (layer, 0) }

end State

/-- One step of the thread, or one of any thread with the `Arc`s of a layer. The last
`Arc` of a layer cannot be dropped while it is borrowed. -/
def step (state : State) : Label → Option State
  | .create => some { state with
      nextLayerId := state.nextLayerId + 1
      layers := state.layers ++ [⟨state.nextLayerId, 1⟩] }
  | .clone layer => do
      let inner ← state.layers[layer]?
      if inner.strong = 0 then none else some (state.setStrong layer (inner.strong + 1))
  | .drop layer => do
      let inner ← state.layers[layer]?
      if inner.strong = 0 ∨ inner.strong = 1 ∧ state.lends layer then none
      else some (state.setStrong layer (inner.strong - 1))
  | .acquire layer hasError => do
      let inner ← state.layers[layer]?
      if inner.strong = 0 then none else some (state.acquire layer inner hasError)
  | .retain => do
      let (layer, index) ← state.acquiring
      let context ← state.contexts[index]?
      let inner ← state.layers[context.inner]?
      if 0 < inner.strong then some { state with acquiring := some (layer, index + 1) }
      else some { state with contexts := state.contexts.eraseIdx index }
  | .push address => do
      let (layer, index) ← state.acquiring
      let inner ← state.layers[layer]?
      if index < state.contexts.length ∨ address ∈ state.contexts.map ThreadCtx.address then none
      else
        let context : ThreadCtx := ⟨inner.id, address, layer, false⟩
        some ({ state with
          contexts := state.contexts ++ [context]
          acquiring := none }.borrow layer context)
  | .release guard =>
      if guard ∈ state.guards ∧ state.acquiring = none then
        some { state with
          contexts := setBorrowed guard.context false state.contexts
          guards := state.guards.erase guard }
      else none
  | .exit =>
      if state.guards = [] ∧ state.acquiring = none then
        some { state with contexts := [], exited := true }
      else none

def run (labels : List Label) (state : State) : Option State := labels.foldlM step state

/-! ## Writing through a pointer -/

section SetBorrowed

variable (address : Nat) (borrowed : Bool) (contexts : List ThreadCtx)

@[simp] theorem setBorrowed_keys :
    (setBorrowed address borrowed contexts).map ThreadCtx.key = contexts.map ThreadCtx.key := by
  rw [setBorrowed, List.map_map]
  apply List.map_congr_left
  intro context _
  simp only [Function.comp_apply]
  split <;> rfl

@[simp] theorem setBorrowed_addresses :
    (setBorrowed address borrowed contexts).map ThreadCtx.address =
      contexts.map ThreadCtx.address := by
  rw [setBorrowed, List.map_map]
  apply List.map_congr_left
  intro context _
  simp only [Function.comp_apply]
  split <;> rfl

variable {address borrowed contexts}

theorem mem_setBorrowed {context : ThreadCtx} :
    context ∈ setBorrowed address borrowed contexts ↔
      ∃ before ∈ contexts, context.key = before.key ∧ context.address = before.address ∧
        context.inner = before.inner ∧
        context.borrowed = if before.address = address then borrowed else before.borrowed := by
  rw [setBorrowed, List.mem_map]
  constructor
  · rintro ⟨before, hmem, rfl⟩
    refine ⟨before, hmem, ?_⟩
    split <;> exact ⟨rfl, rfl, rfl, rfl⟩
  · rintro ⟨before, hmem, hkey, haddress, hinner, hborrowed⟩
    refine ⟨before, hmem, ?_⟩
    rcases context with ⟨key, place, inner, flag⟩
    simp only at hkey haddress hinner hborrowed
    subst hkey haddress hinner hborrowed
    split <;> rfl

end SetBorrowed

/-! ## The invariant -/

def State.ids (state : State) : List Nat := state.layers.map Inner.id

/-- The layer is still there. -/
def State.Alive (state : State) (layer : Nat) : Prop :=
  ∃ inner, state.layers[layer]? = some inner ∧ 0 < inner.strong

/-- The part of the invariant that is about the layers and their contexts. -/
structure Keyed (state : State) : Prop where
  idsNodup : state.ids.Nodup
  idsBelow : ∀ id ∈ state.ids, id < state.nextLayerId
  keys : (state.contexts.map ThreadCtx.key).Nodup
  addresses : (state.contexts.map ThreadCtx.address).Nodup
  keyed : ∀ context ∈ state.contexts, state.ids[context.inner]? = some context.key
  missing : ∀ layer index, state.acquiring = some (layer, index) →
    ∃ id, state.ids[layer]? = some id ∧ id ∉ state.contexts.map ThreadCtx.key

/-- The part that is about guards. A guard's layer is alive, so that the cleanup does
not come for its context. -/
structure Guarded (state : State) : Prop where
  owned : ∀ guard ∈ state.guards, ∃ context ∈ state.contexts,
    context.address = guard.context ∧ context.inner = guard.layer
  apart : (state.guards.map ThreadCtxGuard.context).Nodup
  flagged : ∀ context ∈ state.contexts, context.borrowed = true ↔
    context.address ∈ state.guards.map ThreadCtxGuard.context
  alive : ∀ layer, state.lends layer = true → state.Alive layer

theorem ids_getElem {state : State} {layer : Nat} {inner : Inner}
    (h : state.layers[layer]? = some inner) : state.ids[layer]? = some inner.id := by
  rw [State.ids, List.getElem?_map, h]
  rfl

theorem lends_guard {state : State} {guard : ThreadCtxGuard} (h : guard ∈ state.guards) :
    state.lends guard.layer = true := by
  rw [State.lends, Bool.or_eq_true, List.any_eq_true]
  exact Or.inl ⟨guard, h, beq_self_eq_true guard.layer⟩

theorem keyed_new : Keyed State.new :=
  ⟨List.nodup_nil, by simp [State.ids, State.new], List.nodup_nil, List.nodup_nil,
    by simp [State.new], by simp [State.new]⟩

theorem guarded_new : Guarded State.new :=
  ⟨by simp [State.new], List.nodup_nil, by simp [State.new], by simp [State.new, State.lends]⟩

/-! ## Layers come and go -/

section Layers

variable {state : State}

theorem create_keyed (h : Keyed state) :
    Keyed { state with
      nextLayerId := state.nextLayerId + 1
      layers := state.layers ++ [⟨state.nextLayerId, 1⟩] } := by
  have hids : State.ids { state with
      nextLayerId := state.nextLayerId + 1
      layers := state.layers ++ [⟨state.nextLayerId, 1⟩] } =
        state.ids ++ [state.nextLayerId] := by
    simp [State.ids]
  have hkept : ∀ {layer id : Nat}, state.ids[layer]? = some id →
      (state.ids ++ [state.nextLayerId])[layer]? = some id := by
    intro layer id hid
    rw [List.getElem?_append_left (List.getElem?_eq_some_iff.1 hid).1]
    exact hid
  constructor
  · rw [hids, List.nodup_append]
    refine ⟨h.idsNodup, List.nodup_singleton _, ?_⟩
    rintro id hid _ hnew rfl
    rw [List.mem_singleton] at hnew
    have hlt := h.idsBelow _ hid
    omega
  · rw [hids]
    intro id hid
    change id < state.nextLayerId + 1
    rcases List.mem_append.1 hid with hold | hnew
    · have hlt := h.idsBelow id hold
      omega
    · rw [List.mem_singleton] at hnew
      omega
  · exact h.keys
  · exact h.addresses
  · rw [hids]
    exact fun context hcontext => hkept (h.keyed context hcontext)
  · rw [hids]
    intro layer index hacquiring
    obtain ⟨id, hid, hmissing⟩ := h.missing layer index hacquiring
    exact ⟨id, hkept hid, hmissing⟩

theorem create_guarded (h : Guarded state) :
    Guarded { state with
      nextLayerId := state.nextLayerId + 1
      layers := state.layers ++ [⟨state.nextLayerId, 1⟩] } := by
  refine ⟨h.owned, h.apart, h.flagged, fun layer hlends => ?_⟩
  obtain ⟨inner, hinner, hstrong⟩ := h.alive layer hlends
  refine ⟨inner, ?_, hstrong⟩
  change (state.layers ++ [_])[layer]? = some inner
  rwa [List.getElem?_append_left (List.getElem?_eq_some_iff.1 hinner).1]

theorem setStrong_ids (layer strong : Nat) : (state.setStrong layer strong).ids = state.ids := by
  apply List.ext_getElem?
  intro index
  simp only [State.ids, State.setStrong, List.getElem?_map, List.getElem?_modify]
  cases state.layers[index]? <;> split <;> rfl

theorem setStrong_keyed (h : Keyed state) (layer strong : Nat) :
    Keyed (state.setStrong layer strong) := by
  have hids : (state.setStrong layer strong).ids = state.ids := setStrong_ids layer strong
  exact ⟨hids ▸ h.idsNodup, hids ▸ h.idsBelow, h.keys, h.addresses, hids ▸ h.keyed,
    hids ▸ h.missing⟩

/-- A count may only reach zero when the layer is not borrowed. -/
theorem setStrong_guarded (h : Guarded state) {layer strong : Nat}
    (hstrong : state.lends layer = true → 0 < strong) :
    Guarded (state.setStrong layer strong) := by
  refine ⟨h.owned, h.apart, h.flagged, fun other hlends => ?_⟩
  obtain ⟨inner, hinner, halive⟩ := h.alive other hlends
  by_cases hsame : layer = other
  · subst hsame
    refine ⟨{ inner with strong := strong }, ?_, hstrong hlends⟩
    rw [State.setStrong, List.getElem?_modify_eq, hinner]
    rfl
  · exact ⟨inner, (List.getElem?_modify_ne _ _ hsame).trans hinner, halive⟩

end Layers

/-! ## Contexts and guards -/

section Contexts

variable {state : State}

theorem acquiring_keyed (h : Keyed state) {layer id : Nat} (index : Nat)
    (hid : state.ids[layer]? = some id) (hmissing : id ∉ state.contexts.map ThreadCtx.key) :
    Keyed { state with acquiring := some (layer, index) } where
  idsNodup := h.idsNodup
  idsBelow := h.idsBelow
  keys := h.keys
  addresses := h.addresses
  keyed := h.keyed
  missing := by
    intro other position hacquiring
    simp only [Option.some.injEq, Prod.mk.injEq] at hacquiring
    obtain ⟨rfl, rfl⟩ := hacquiring
    exact ⟨id, hid, hmissing⟩

theorem acquiring_guarded (h : Guarded state) {layer : Nat} (index : Nat)
    (halive : state.Alive layer) :
    Guarded { state with acquiring := some (layer, index) } := by
  refine ⟨h.owned, h.apart, h.flagged, fun other hlends => ?_⟩
  simp only [State.lends, Option.any_some, Bool.or_eq_true, beq_iff_eq] at hlends
  rcases hlends with hguard | rfl
  · apply h.alive other
    rw [State.lends, hguard, Bool.true_or]
  · exact halive

theorem removed_keyed (h : Keyed state) (index : Nat) :
    Keyed { state with contexts := state.contexts.eraseIdx index } := by
  have hsublist := List.eraseIdx_sublist state.contexts index
  refine ⟨h.idsNodup, h.idsBelow, h.keys.sublist (hsublist.map _),
    h.addresses.sublist (hsublist.map _), ?_, ?_⟩
  · exact fun context hcontext => h.keyed context (hsublist.mem hcontext)
  · intro layer position hacquiring
    obtain ⟨id, hid, hmissing⟩ := h.missing layer position hacquiring
    exact ⟨id, hid, fun hmem => hmissing ((hsublist.map _).mem hmem)⟩

theorem removed_guarded (h : Guarded state) {index : Nat} {context : ThreadCtx} {inner : Inner}
    (hcontext : state.contexts[index]? = some context)
    (hinner : state.layers[context.inner]? = some inner) (hgone : ¬ 0 < inner.strong) :
    Guarded { state with contexts := state.contexts.eraseIdx index } := by
  refine ⟨?_, h.apart, ?_, h.alive⟩
  · intro guard hguard
    obtain ⟨own, hown, haddress, hlayer⟩ := h.owned guard hguard
    refine ⟨own, ?_, haddress, hlayer⟩
    obtain ⟨position, hposition⟩ := List.mem_iff_getElem?.1 hown
    refine List.mem_eraseIdx_iff_getElem?.2 ⟨position, ?_, hposition⟩
    rintro rfl
    obtain ⟨inner', hinner', halive⟩ := h.alive _ (lends_guard hguard)
    rw [hcontext, Option.some.injEq] at hposition
    rw [← hlayer, ← hposition, hinner, Option.some.injEq] at hinner'
    exact hgone (hinner' ▸ halive)
  · intro other hother
    exact h.flagged other ((List.eraseIdx_sublist state.contexts index).mem hother)

/-- A new context takes a key and an address that no other has. -/
theorem pushed_keyed (h : Keyed state) {layer index id address : Nat}
    (hacquiring : state.acquiring = some (layer, index)) (hid : state.ids[layer]? = some id)
    (haddress : address ∉ state.contexts.map ThreadCtx.address) :
    Keyed { state with
      contexts := state.contexts ++ [⟨id, address, layer, false⟩]
      acquiring := none } := by
  obtain ⟨id', hid', hmissing⟩ := h.missing layer index hacquiring
  rw [hid, Option.some.injEq] at hid'
  subst hid'
  refine ⟨h.idsNodup, h.idsBelow, ?_, ?_, ?_, ?_⟩
  · rw [List.map_append]
    exact List.nodup_append_comm.1 (List.nodup_cons.2 ⟨hmissing, h.keys⟩)
  · rw [List.map_append]
    exact List.nodup_append_comm.1 (List.nodup_cons.2 ⟨haddress, h.addresses⟩)
  · intro context hcontext
    rcases List.mem_append.1 hcontext with hold | hnew
    · exact h.keyed context hold
    · rw [List.mem_singleton.1 hnew]
      exact hid
  · exact fun other position hnone => absurd hnone (Option.some_ne_none _).symm

theorem pushed_guarded (h : Guarded state) {layer id address : Nat}
    (haddress : address ∉ state.contexts.map ThreadCtx.address) :
    Guarded { state with
      contexts := state.contexts ++ [⟨id, address, layer, false⟩]
      acquiring := none } := by
  refine ⟨?_, h.apart, ?_, ?_⟩
  · intro guard hguard
    obtain ⟨own, hown, howned⟩ := h.owned guard hguard
    exact ⟨own, List.mem_append_left _ hown, howned⟩
  · intro context hcontext
    rcases List.mem_append.1 hcontext with hold | hnew
    · exact h.flagged context hold
    · rw [List.mem_singleton.1 hnew]
      constructor
      · exact fun hborrowed => absurd hborrowed Bool.false_ne_true
      · intro hguard
        obtain ⟨guard, hmem, hsame⟩ := List.mem_map.1 hguard
        obtain ⟨own, hown, howned, -⟩ := h.owned guard hmem
        exact absurd (List.mem_map.2 ⟨own, hown, howned.trans hsame⟩) haddress
  · intro other hlends
    apply h.alive other
    simp only [State.lends, Option.any_none, Bool.or_false] at hlends
    rw [State.lends, hlends, Bool.true_or]

theorem setBorrowed_keyed (h : Keyed state) (address : Nat) (borrowed : Bool)
    (guards : List ThreadCtxGuard) :
    Keyed { state with
      contexts := setBorrowed address borrowed state.contexts
      guards := guards } := by
  refine ⟨h.idsNodup, h.idsBelow, ?_, ?_, ?_, ?_⟩
  · exact (setBorrowed_keys _ _ _).symm ▸ h.keys
  · exact (setBorrowed_addresses _ _ _).symm ▸ h.addresses
  · intro after hafter
    obtain ⟨before, hbefore, hkey, -, hinner, -⟩ := mem_setBorrowed.1 hafter
    rw [hkey, hinner]
    exact h.keyed before hbefore
  · intro other position hacquiring
    obtain ⟨id, hid, hmissing⟩ := h.missing other position hacquiring
    exact ⟨id, hid, (setBorrowed_keys _ _ _).symm ▸ hmissing⟩

theorem borrow_keyed (h : Keyed state) (layer : Nat) (context : ThreadCtx) :
    Keyed (state.borrow layer context) := by
  rw [State.borrow]
  split
  · exact h
  · exact setBorrowed_keyed h _ _ _

/-- A context is lent when its flag says that it is free, and the flag is set. -/
theorem borrow_guarded (h : Guarded state) {layer : Nat} {context : ThreadCtx}
    (hcontext : context ∈ state.contexts) (hlayer : context.inner = layer)
    (halive : state.Alive layer) : Guarded (state.borrow layer context) := by
  rw [State.borrow]
  split
  · exact h
  · rename_i hfree
    refine ⟨?_, ?_, ?_, ?_⟩
    · intro guard hguard
      have howned : ∃ before ∈ state.contexts, before.address = guard.context ∧
          before.inner = guard.layer := by
        rcases List.mem_cons.1 hguard with rfl | hold
        · exact ⟨context, hcontext, rfl, hlayer⟩
        · exact h.owned guard hold
      obtain ⟨before, hbefore, haddress, hinner⟩ := howned
      exact ⟨{ before with borrowed := if before.address = context.address then true
          else before.borrowed }, mem_setBorrowed.2 ⟨before, hbefore, rfl, rfl, rfl, rfl⟩,
        haddress, hinner⟩
    · exact List.nodup_cons.2 ⟨fun hmem => hfree ((h.flagged context hcontext).2 hmem), h.apart⟩
    · intro after hafter
      obtain ⟨before, hbefore, -, haddress, -, hborrowed⟩ := mem_setBorrowed.1 hafter
      rw [hborrowed, haddress, List.map_cons, List.mem_cons]
      split
      · exact iff_of_true rfl (Or.inl ‹_›)
      · rename_i hother
        rw [or_iff_right hother]
        exact h.flagged before hbefore
    · intro other hlends
      simp only [State.lends, List.any_cons, Bool.or_eq_true, beq_iff_eq] at hlends
      rcases hlends with (rfl | hguard) | hacquiring
      · exact halive
      · apply h.alive other
        rw [State.lends, hguard, Bool.true_or]
      · apply h.alive other
        rw [State.lends, hacquiring, Bool.or_true]

theorem erase_contexts {guards : List ThreadCtxGuard} {guard : ThreadCtxGuard}
    (hguard : guard ∈ guards) (hapart : (guards.map ThreadCtxGuard.context).Nodup)
    (address : Nat) :
    address ∈ (guards.erase guard).map ThreadCtxGuard.context ↔
      address ∈ guards.map ThreadCtxGuard.context ∧ address ≠ guard.context := by
  have herase : ∀ other, other ∈ guards.erase guard ↔ other ≠ guard ∧ other ∈ guards :=
    fun other => (List.Nodup.of_map _ hapart).mem_erase_iff
  constructor
  · intro hmem
    obtain ⟨other, hother, rfl⟩ := List.mem_map.1 hmem
    obtain ⟨hne, hold⟩ := (herase other).1 hother
    refine ⟨List.mem_map_of_mem hold, fun hsame => hne ?_⟩
    exact List.inj_on_of_nodup_map hapart hold hguard hsame
  · rintro ⟨hmem, hne⟩
    obtain ⟨other, hold, rfl⟩ := List.mem_map.1 hmem
    refine List.mem_map_of_mem ((herase other).2 ⟨?_, hold⟩)
    rintro rfl
    exact hne rfl

theorem released_guarded (h : Guarded state) {guard : ThreadCtxGuard}
    (hguard : guard ∈ state.guards) :
    Guarded { state with
      contexts := setBorrowed guard.context false state.contexts
      guards := state.guards.erase guard } := by
  refine ⟨?_, h.apart.sublist (List.erase_sublist.map _), ?_, ?_⟩
  · intro other hother
    obtain ⟨before, hbefore, haddress, hinner⟩ := h.owned other (List.mem_of_mem_erase hother)
    exact ⟨{ before with borrowed := if before.address = guard.context then false
        else before.borrowed }, mem_setBorrowed.2 ⟨before, hbefore, rfl, rfl, rfl, rfl⟩,
      haddress, hinner⟩
  · intro after hafter
    obtain ⟨before, hbefore, -, haddress, -, hborrowed⟩ := mem_setBorrowed.1 hafter
    rw [hborrowed, haddress, erase_contexts hguard h.apart]
    split
    · rename_i hsame
      exact iff_of_false Bool.false_ne_true fun hmem => hmem.2 hsame
    · rename_i hother
      rw [and_iff_left hother]
      exact h.flagged before hbefore
  · intro other hlends
    apply h.alive other
    simp only [State.lends, Bool.or_eq_true, List.any_eq_true] at hlends ⊢
    rcases hlends with ⟨own, hown, hlayer⟩ | hacquiring
    · exact Or.inl ⟨own, List.mem_of_mem_erase hown, hlayer⟩
    · exact Or.inr hacquiring

theorem exit_keyed (h : Keyed state) (hidle : state.acquiring = none) :
    Keyed { state with contexts := [], exited := true } :=
  ⟨h.idsNodup, h.idsBelow, List.nodup_nil, List.nodup_nil,
    fun _ hcontext => absurd hcontext List.not_mem_nil,
    fun _ _ hacquiring => absurd (hidle.symm.trans hacquiring) (Option.some_ne_none _).symm⟩

theorem exit_guarded (h : Guarded state) (hfree : state.guards = []) :
    Guarded { state with contexts := [], exited := true } :=
  ⟨fun _ hguard => absurd (hfree ▸ hguard) List.not_mem_nil, h.apart,
    fun _ hcontext => absurd hcontext List.not_mem_nil, h.alive⟩

end Contexts

/-! ## Runs -/

section Runs

variable {state next : State}

theorem step_keyed (h : Keyed state) {label : Label} (hstep : step state label = some next) :
    Keyed next := by
  cases label with
  | create =>
      simp only [step, Option.some.injEq] at hstep
      exact hstep ▸ create_keyed h
  | clone layer =>
      simp only [step, Option.bind_eq_bind, Option.bind_eq_some_iff] at hstep
      obtain ⟨inner, -, hstep⟩ := hstep
      split at hstep
      · exact absurd hstep (by simp)
      · rw [Option.some.injEq] at hstep
        exact hstep ▸ setStrong_keyed h _ _
  | drop layer =>
      simp only [step, Option.bind_eq_bind, Option.bind_eq_some_iff] at hstep
      obtain ⟨inner, -, hstep⟩ := hstep
      split at hstep
      · exact absurd hstep (by simp)
      · rw [Option.some.injEq] at hstep
        exact hstep ▸ setStrong_keyed h _ _
  | acquire layer hasError =>
      simp only [step, Option.bind_eq_bind, Option.bind_eq_some_iff] at hstep
      obtain ⟨inner, hinner, hstep⟩ := hstep
      split at hstep
      · exact absurd hstep (by simp)
      · rw [Option.some.injEq] at hstep
        subst hstep
        rw [State.acquire]
        split
        · exact h
        · split
          · exact borrow_keyed h _ _
          · rename_i hnone
            apply acquiring_keyed h 0 (ids_getElem hinner)
            intro hmem
            obtain ⟨context, hcontext, hkey⟩ := List.mem_map.1 hmem
            have hnot := List.find?_eq_none.1 hnone context hcontext
            exact hnot (beq_iff_eq.2 hkey)
  | retain =>
      simp only [step, Option.bind_eq_bind, Option.bind_eq_some_iff] at hstep
      obtain ⟨⟨layer, index⟩, hacquiring, context, hcontext, inner, hinner, hstep⟩ := hstep
      split at hstep
      · rw [Option.some.injEq] at hstep
        obtain ⟨id, hid, hmissing⟩ := h.missing layer index hacquiring
        exact hstep ▸ acquiring_keyed h (index + 1) hid hmissing
      · rw [Option.some.injEq] at hstep
        exact hstep ▸ removed_keyed h index
  | push address =>
      simp only [step, Option.bind_eq_bind, Option.bind_eq_some_iff] at hstep
      obtain ⟨⟨layer, index⟩, hacquiring, inner, hinner, hstep⟩ := hstep
      split at hstep
      · exact absurd hstep (by simp)
      · rename_i hready
        rw [Option.some.injEq] at hstep
        subst hstep
        apply borrow_keyed
        exact pushed_keyed h hacquiring (ids_getElem hinner) (not_or.1 hready).2
  | release guard =>
      simp only [step] at hstep
      split at hstep
      · rw [Option.some.injEq] at hstep
        exact hstep ▸ setBorrowed_keyed h _ _ _
      · exact absurd hstep (by simp)
  | exit =>
      simp only [step] at hstep
      split at hstep
      · rename_i hidle
        rw [Option.some.injEq] at hstep
        exact hstep ▸ exit_keyed h hidle.2
      · exact absurd hstep (by simp)

theorem step_guarded (hkeyed : Keyed state) (h : Guarded state) {label : Label}
    (hstep : step state label = some next) : Guarded next := by
  cases label with
  | create =>
      simp only [step, Option.some.injEq] at hstep
      exact hstep ▸ create_guarded h
  | clone layer =>
      simp only [step, Option.bind_eq_bind, Option.bind_eq_some_iff] at hstep
      obtain ⟨inner, -, hstep⟩ := hstep
      split at hstep
      · exact absurd hstep (by simp)
      · rw [Option.some.injEq] at hstep
        exact hstep ▸ setStrong_guarded h fun _ => Nat.succ_pos _
  | drop layer =>
      simp only [step, Option.bind_eq_bind, Option.bind_eq_some_iff] at hstep
      obtain ⟨inner, -, hstep⟩ := hstep
      split at hstep
      · exact absurd hstep (by simp)
      · rename_i hfree
        rw [Option.some.injEq] at hstep
        refine hstep ▸ setStrong_guarded h fun hlends => ?_
        simp only [hlends, and_true, not_or] at hfree
        omega
  | acquire layer hasError =>
      simp only [step, Option.bind_eq_bind, Option.bind_eq_some_iff] at hstep
      obtain ⟨inner, hinner, hstep⟩ := hstep
      split at hstep
      · exact absurd hstep (by simp)
      · rename_i hstrong
        rw [Option.some.injEq] at hstep
        subst hstep
        have halive : state.Alive layer := ⟨inner, hinner, Nat.pos_of_ne_zero hstrong⟩
        rw [State.acquire]
        split
        · exact h
        · split
          · rename_i context hfound
            have hmem := List.mem_of_find?_eq_some hfound
            have hkey : (context.key == inner.id) = true := by
              have hsome := List.find?_some hfound
              exact hsome
            refine borrow_guarded h hmem ?_ halive
            -- Two layers of one id are one layer.
            have hlayer := ids_getElem hinner
            have hown := hkeyed.keyed context hmem
            rw [beq_iff_eq.1 hkey, ← hlayer] at hown
            have hbound := (List.getElem?_eq_some_iff.1 (hown.trans hlayer)).1
            exact (List.getElem?_inj hbound hkeyed.idsNodup).1 hown
          · exact acquiring_guarded h 0 halive
  | retain =>
      simp only [step, Option.bind_eq_bind, Option.bind_eq_some_iff] at hstep
      obtain ⟨⟨layer, index⟩, hacquiring, context, hcontext, inner, hinner, hstep⟩ := hstep
      split at hstep
      · rw [Option.some.injEq] at hstep
        refine hstep ▸ acquiring_guarded h (index + 1) (h.alive layer ?_)
        rw [State.lends, hacquiring, Option.any_some, beq_self_eq_true, Bool.or_true]
      · rename_i hgone
        rw [Option.some.injEq] at hstep
        exact hstep ▸ removed_guarded h hcontext hinner hgone
  | push address =>
      simp only [step, Option.bind_eq_bind, Option.bind_eq_some_iff] at hstep
      obtain ⟨⟨layer, index⟩, hacquiring, inner, hinner, hstep⟩ := hstep
      split at hstep
      · exact absurd hstep (by simp)
      · rename_i hready
        rw [Option.some.injEq] at hstep
        subst hstep
        refine borrow_guarded (pushed_guarded h (not_or.1 hready).2)
          (List.mem_append_right _ List.mem_cons_self) rfl ?_
        apply h.alive layer
        rw [State.lends, hacquiring, Option.any_some, beq_self_eq_true, Bool.or_true]
  | release guard =>
      simp only [step] at hstep
      split at hstep
      · rename_i hguard
        rw [Option.some.injEq] at hstep
        exact hstep ▸ released_guarded h hguard.1
      · exact absurd hstep (by simp)
  | exit =>
      simp only [step] at hstep
      split at hstep
      · rename_i hidle
        rw [Option.some.injEq] at hstep
        exact hstep ▸ exit_guarded h hidle.1
      · exact absurd hstep (by simp)

theorem run_sound {labels : List Label} (hkeyed : Keyed state) (hguarded : Guarded state)
    (hrun : run labels state = some next) : Keyed next ∧ Guarded next := by
  induction labels generalizing state with
  | nil =>
      simp only [run, List.foldlM_nil, Option.pure_def, Option.some.injEq] at hrun
      exact hrun ▸ ⟨hkeyed, hguarded⟩
  | cons label labels ih =>
      simp only [run, List.foldlM_cons, Option.bind_eq_bind, Option.bind_eq_some_iff] at hrun
      obtain ⟨middle, hstep, hrest⟩ := hrun
      exact ih (step_keyed hkeyed hstep) (step_guarded hkeyed hguarded hstep) hrest

/-- The context of a guard, in the thread's list and of the guard's layer. -/
structure Owns (state : State) (guard : ThreadCtxGuard) (context : ThreadCtx) : Prop where
  listed : context ∈ state.contexts
  address : context.address = guard.context
  layer : context.inner = guard.layer
  key : state.ids[guard.layer]? = some context.key
  alive : state.Alive guard.layer

/-- Guards are exclusive, their contexts stay where they are, and the flags are right. -/
structure Exclusive (state : State) : Prop where
  onePerContext : (state.guards.map ThreadCtxGuard.context).Nodup
  owned : ∀ guard ∈ state.guards, ∃ context, Owns state guard context
  onePerLayer : (state.contexts.map ThreadCtx.key).Nodup
  boxes : (state.contexts.map ThreadCtx.address).Nodup
  borrowed : ∀ context ∈ state.contexts, context.borrowed = true ↔
    ∃ guard ∈ state.guards, guard.context = context.address

theorem guards_exclusive {labels : List Label} (hrun : run labels State.new = some state) :
    Exclusive state := by
  obtain ⟨hkeyed, hguarded⟩ := run_sound keyed_new guarded_new hrun
  refine ⟨hguarded.apart, ?_, hkeyed.keys, hkeyed.addresses, ?_⟩
  · intro guard hguard
    obtain ⟨context, hcontext, haddress, hlayer⟩ := hguarded.owned guard hguard
    refine ⟨context, hcontext, haddress, hlayer, ?_, hguarded.alive _ (lends_guard hguard)⟩
    rw [← hlayer]
    exact hkeyed.keyed context hcontext
  · intro context hcontext
    rw [hguarded.flagged context hcontext, List.mem_map]

end Runs

/-- A second layer's context is cleaned up while the first one's is lent, and its
address is used again for a third layer. -/
def sampleRun : Option State :=
  run [.create, .create, .create, .acquire 0 false, .push 10, .acquire 1 false, .retain,
    .push 11, .release ⟨1, 11⟩, .drop 1, .acquire 2 false, .retain, .retain, .push 11] State.new

theorem sampleRun_isSome : sampleRun.isSome = true := by decide

theorem guards_exclusive_nested : ∃ state, sampleRun = some state ∧
    state.guards = [⟨2, 11⟩, ⟨0, 10⟩] ∧ Exclusive state := by
  obtain ⟨state, hrun⟩ := Option.isSome_iff_exists.1 sampleRun_isSome
  refine ⟨state, hrun, ?_, guards_exclusive hrun⟩
  have hguards : sampleRun.map State.guards = some [⟨2, 11⟩, ⟨0, 10⟩] := by decide
  rw [hrun] at hguards
  exact Option.some.inj hguards

end TracingPerfetto.ThreadContexts
