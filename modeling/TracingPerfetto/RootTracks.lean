import TracingPerfetto.TrackDescriptors

/-!
The tracks of the root spans: the slices of a span that was created under no other are on a
track that hangs off the process.
-/

namespace TracingPerfetto.Layer

open TracingPerfetto.Schema
open TracingPerfetto.Runtime TracingPerfetto.Sequence TracingPerfetto.TrackEvents
open TracingPerfetto.Threads TracingPerfetto.History TracingPerfetto.PacketFields
open TracingPerfetto.SpanStore (SpanId)

/-! ## Parents -/

section Registry

variable {registry registry' : Registry} {thread : ThreadId} {call : Call}

/-- What the registry says of the spans that were created before. -/
structure Registry.Extends (registry registry' : Registry) : Prop where
  issued : registry.nextInstance ≤ registry'.nextInstance
  parents : ∀ span, span < registry.nextInstance → registry'.parents span = registry.parents span

theorem accept_created {spanId : SpanId} {metadata : Metadata} {parent : Option SpanId}
    (h : registry.accept thread (.newSpan spanId metadata parent) = some registry') :
    registry'.nextInstance = registry.nextInstance + 1 ∧
      registry'.parents = Function.update registry.parents registry.nextInstance parent := by
  simp only [Registry.accept] at h
  split at h
  · cases h
  · cases parent with
    | none =>
        cases h
        exact ⟨rfl, rfl⟩
    | some parent =>
        simp only at h
        split at h
        · cases h
          exact ⟨rfl, rfl⟩
        · cases h

theorem accept_extends (h : registry.accept thread call = some registry') :
    registry.Extends registry' := by
  cases call with
  | newSpan spanId metadata parent =>
      obtain ⟨hissued, hparents⟩ := accept_created h
      refine ⟨by rw [hissued]; exact Nat.le_succ _, fun span hspan => ?_⟩
      rw [hparents, Function.update_of_ne (Nat.ne_of_lt hspan)]
  | enter spanId | record spanId | followsFrom spanId follows =>
      simp only [Registry.accept] at h
      split at h
      · cases h
        exact ⟨le_rfl, fun _ _ => rfl⟩
      · cases h
  | exit spanId | close spanId =>
      simp only [Registry.accept] at h
      split at h
      · split at h
        · cases h
          exact ⟨le_rfl, fun _ _ => rfl⟩
        · cases h
      · cases h
  | event metadata span =>
      cases h
      exact ⟨le_rfl, fun _ _ => rfl⟩
  | exitThread =>
      simp only [Registry.accept] at h
      split at h
      · cases h
        exact ⟨le_rfl, fun _ _ => rfl⟩
      · cases h

theorem perform_extends {env : Env} {action : Act} {choice : Choice} {state state' : State}
    {reply : action.Reply}
    (h : perform env thread action choice state = some (reply, state')) :
    state.registry.Extends state'.registry := by
  by_cases hfinish : ∃ call, action = .registry (.finish call)
  · obtain ⟨call, rfl⟩ := hfinish
    simp only [perform, Option.some.injEq, Prod.mk.injEq] at h
    rw [← h.2]
    constructor
    · exact (finish_nextInstance call).symm.le
    · intro span _
      cases call <;> simp only [RegistryAct.perform, Call.handle] <;> (try split) <;> rfl
  · rw [perform_registry h fun call heq => hfinish ⟨call, heq⟩]
    exact ⟨le_rfl, fun _ _ => rfl⟩

end Registry

/-! ## Roots -/

/-- The track of its own that the slice in a packet is on. -/
def Content.sliceTrack : Content → Option Nat
  | .body (.lifetimeBegin uuid _ _) | .body (.lifetimeEnd uuid _ _)
  | .body (.pollBegin uuid _ _) | .body (.enterEnd (some uuid) _) => some uuid
  | _ => none

theorem Emitted.Reads.slice {packet : Emitted} (h : packet.Reads env) {type trackUuid : Nat}
    (hkind : packet.kind = some (.event type (some trackUuid)))
    (htype : type ≠ TrackEvent.typeInstant) :
    ∃ used, packet.content.sliceTrack = some used ∧ trackUuid = env.bases.uuid used := by
  obtain ⟨body, hcontent, hbody⟩ := h.follows hkind rfl
  cases body with
  | lifetimeBegin used metadata visits | lifetimeEnd used flows fields
  | pollBegin used pollFlowId flows =>
      cases hbody
      exact ⟨used, by rw [hcontent]; rfl, rfl⟩
  | enterEnd used flows =>
      cases used with
      | none => cases hbody
      | some used =>
          cases hbody
          exact ⟨used, by rw [hcontent]; rfl, rfl⟩
  | instant used metadata visits =>
      simp only [kindOf, Kind.event.injEq] at hbody
      exact absurd hbody.1 htype
  | _ => cases hbody

/-- If the span has no parent, the track hangs off the process. -/
structure OnTrack (state : State) (before : List Emitted) (span uuid : Nat) : Prop where
  issued : span < state.registry.nextInstance
  root : state.registry.parents span = none → ∃ key, Described before uuid key ∧
    state.shared.processTrack = some key.parentUuid

/-- A callback for a root span has no enclosing track, and what it has taken is on its
track. -/
structure Frame.Descends (state : State) (frame : Frame) : Prop where
  created : ∀ spanId metadata parent, frame.call = .newSpan spanId metadata parent →
    frame.instance_ < state.registry.nextInstance ∧
      state.registry.parents frame.instance_ = parent ∧
      (parent = none → frame.enclosing = none) ∧ frame.taken = none
  taken : ∀ found uuid, frame.taken = some found → found.data.trackUuid = some uuid →
    OnTrack state state.trace.packets found.entry.instance_ uuid

structure Roots (state : State) (frames : Frames) : Prop where
  frames : Every (fun _ frame => frame.Descends state) frames
  entry : ∀ spanId entry uuid, state.spans.entries spanId = some entry →
    entry.data.trackUuid = some uuid → OnTrack state state.trace.packets entry.instance_ uuid
  packets : Holds (fun before packet => ∀ span uuid, packet.span = some span →
    packet.content.sliceTrack = some uuid → OnTrack state before span uuid) state.trace.packets

section Roots

variable {env : Env} {state state' : State} {frames : Frames} {thread : ThreadId}
  {frame : Frame} {rest : List Frame} {choice : Choice}

theorem OnTrack.mono {before before' : List Emitted} {span uuid : Nat}
    (h : OnTrack state before span uuid) (hextends : state.registry.Extends state'.registry)
    (hkept : ∀ process, state.shared.processTrack = some process →
      state'.shared.processTrack = some process)
    (hsub : before ⊆ before') : OnTrack state' before' span uuid where
  issued := h.issued.trans_le hextends.issued
  root := by
    intro hroot
    rw [hextends.parents span h.issued] at hroot
    obtain ⟨key, hdescribed, hprocess⟩ := h.root hroot
    exact ⟨key, hdescribed.mono hsub, hkept _ hprocess⟩

theorem Frame.Descends.mono (h : frame.Descends state)
    (hextends : state.registry.Extends state'.registry)
    (hkept : ∀ process, state.shared.processTrack = some process →
      state'.shared.processTrack = some process)
    (hsub : state.trace.packets ⊆ state'.trace.packets) : frame.Descends state' where
  created := by
    intro spanId metadata parent hcall
    obtain ⟨hissued, hparent, hnone, htaken⟩ := h.created spanId metadata parent hcall
    exact ⟨hissued.trans_le hextends.issued, (hextends.parents _ hissued).trans hparent, hnone,
      htaken⟩
  taken := fun found uuid htaken huuid => (h.taken found uuid htaken huuid).mono hextends hkept hsub

theorem created_onTrack (hbase : Tracking env state frames) (hdrawn : Drawn state frames)
    (hmem : frame ∈ frames thread) (h : frame.Descends state) {spanId : SpanId}
    {metadata : Metadata} {parent : Option SpanId}
    (hcall : frame.call = .newSpan spanId metadata parent) {held : Held} {key : TrackKey}
    (hhead : frame.held.head? = some held) (hkey : held.key = some key)
    (hparent : frame.Parent key.parentUuid) :
    OnTrack state state.trace.packets frame.instance_ held.uuid := by
  obtain ⟨hissued, hregistered, hnone, -⟩ := h.created spanId metadata parent hcall
  refine ⟨hissued, fun hroot => ⟨key, ?_, ?_⟩⟩
  · have hsuits := (hbase.fits.frames thread frame hmem).held held (List.mem_of_head? hhead)
    rw [hkey] at hsuits
    exact hsuits.described
  · rw [hregistered] at hroot
    rcases hparent with hsome | ⟨-, hprocess⟩
    · rw [hnone hroot] at hsome
      cases hsome
    · exact hdrawn.processes thread frame hmem _ hprocess

/-- The enclosing track changes only with a look at the enclosing span. -/
theorem next_enclosing (action : Act) (reply : action.Reply)
    (haction : ∀ spanId, action ≠ .spans (.get spanId)) :
    (next frame action reply).enclosing = frame.enclosing := by
  cases action with
  | shared act => cases act <;> rfl
  | pools act => cases act <;> rfl
  | spans act =>
      cases act with
      | get spanId => exact absurd rfl (haction spanId)
      | take => cases reply <;> rfl
      | _ => rfl
  | context act =>
      cases act with
      | lookup | cachedTrack | evict | releaseLocal => cases reply <;> rfl
      | _ => rfl
  | sequence act =>
      cases act with
      | write span calledAt content =>
          cases content with
          | body body => cases body <;> rfl
          | _ => rfl
      | _ => rfl
  | registry act => cases act <;> rfl
  | format => rfl

theorem Frame.Descends.act (h : frame.Descends state)
    (hentry : ∀ spanId entry uuid, state.spans.entries spanId = some entry →
      entry.data.trackUuid = some uuid → OnTrack state state.trace.packets entry.instance_ uuid)
    {action : Act} {reply : action.Reply} (hpre : pre env frame action)
    (hperform : perform env thread action choice state = some (reply, state')) :
    (next frame action reply).Descends state where
  created := by
    intro spanId metadata parent hcall
    have hsame : SameCall frame (next frame action reply) := next_call action reply
    rw [hsame.call] at hcall
    obtain ⟨hissued, hparent, hnone, htaken⟩ := h.created spanId metadata parent hcall
    rw [hsame.instance_]
    refine ⟨hissued, hparent, fun hroot => ?_, ?_⟩
    · by_cases hget : ∃ enclosing, action = .spans (.get enclosing)
      · obtain ⟨enclosing, rfl⟩ := hget
        rw [hpre.2 spanId metadata parent hcall] at hroot
        cases hroot
      · rw [next_enclosing action reply fun enclosing heq => hget ⟨enclosing, heq⟩]
        exact hnone hroot
    · by_cases htake : ∃ closed, action = .spans (.take closed)
      · obtain ⟨closed, rfl⟩ := htake
        rw [hpre.2.1] at hcall
        cases hcall
      · rw [(next_taken action reply fun closed heq => htake ⟨closed, heq⟩).1]
        exact htaken
  taken := by
    intro found uuid htaken huuid
    rcases taken_after hperform htaken with hold | ⟨-, hstored⟩
    · exact h.taken found uuid hold huuid
    · exact hentry found.spanId found.entry uuid hstored huuid

/-- The track of the slices in a packet that is written. -/
theorem write_onTrack (hbase : Tracking env state frames) (hdrawn : Drawn state frames)
    (h : Roots state frames) (hmem : frame ∈ frames thread) {span uuid calledAt : Nat}
    {content : Content} (hpre : pre env frame (.sequence (.write (some span) calledAt content)))
    (hslice : content.sliceTrack = some uuid) :
    OnTrack state state.trace.packets span uuid := by
  have hdescends := h.frames thread frame hmem
  obtain ⟨-, -, hemits, hwrites⟩ := hpre
  have hguarded : ∀ found, frame.guard = some found → found.data.trackUuid = some uuid →
      OnTrack state state.trace.packets found.entry.instance_ uuid := fun found hguard huuid =>
    h.entry _ _ uuid (hbase.known.guards.entry thread frame hmem found hguard) huuid
  cases content with
  | body body =>
      cases body with
      | lifetimeBegin used metadata visits =>
          cases hslice
          obtain ⟨-, ⟨key, hhead, hparent⟩, hguard, spanId, metadata', parent, hcall⟩ := hemits
          cases hwrites with
          | begin _ _ _ _ _ _ _ _ hspan =>
              subst hspan
              exact created_onTrack hbase hdrawn hmem hdescends hcall hhead rfl hparent
          | slice found hshown =>
              rw [hguard] at hshown
              cases hshown
          | lifetimeEnd found htaken =>
              rw [(hdescends.created spanId metadata' parent hcall).2.2.2] at htaken
              cases htaken
      | lifetimeEnd used flows fields =>
          cases hslice
          obtain ⟨-, -, found, htaken, huuid⟩ := hemits
          cases hwrites with
          | begin _ _ _ _ _ _ _ _ _ hcontent => cases hcontent
          | slice _ _ _ _ _ _ hlast => cases hlast
          | lifetimeEnd shown hshown _ _ hspan =>
              rw [htaken] at hshown
              cases hshown
              subst hspan
              exact hdescends.taken found uuid htaken huuid
      | pollBegin used pollFlowId flows =>
          cases hslice
          obtain ⟨-, found, hguard, huuid⟩ := hemits
          cases hwrites with
          | begin _ _ _ _ _ _ _ _ _ hcontent => cases hcontent
          | slice shown hshown _ hspan =>
              rw [hguard] at hshown
              cases hshown
              subst hspan
              exact hguarded found hguard huuid
          | lifetimeEnd _ _ hnone =>
              rw [hguard] at hnone
              cases hnone
      | enterEnd used flows =>
          cases used with
          | none => cases hslice
          | some used =>
              cases hslice
              obtain ⟨-, found, hguard, huuid⟩ := hemits
              cases hwrites with
              | begin _ _ _ _ _ _ _ _ _ hcontent => cases hcontent
              | slice shown hshown _ hspan =>
                  rw [hguard] at hshown
                  cases hshown
                  subst hspan
                  exact hguarded found hguard huuid
              | lifetimeEnd _ _ hnone =>
                  rw [hguard] at hnone
                  cases hnone
      | _ => cases hslice
  | _ => cases hslice

theorem roots_kept (env : Env) : KeepsInv env AnyCall
    (fun state frames => Tracking env state frames ∧ Drawn state frames) Roots where
  act := by
    rintro state frames thread frame rest action choice reply state' ⟨hbase, hdrawn⟩ h hthread
      hpre hperform -
    change perform env thread action choice state = some (reply, state') at hperform
    change pre env frame action at hpre
    have hmem : frame ∈ frames thread := Guards.top_mem hthread
    have hextends := perform_extends hperform
    have hsub := (perform_grows hperform).packets
    have hkept : ∀ process, state.shared.processTrack = some process →
        state'.shared.processTrack = some process := fun _ => processTrack_kept hperform
    have hmono : ∀ {before span uuid}, OnTrack state before span uuid →
        OnTrack state' before span uuid := fun hold => hold.mono hextends hkept fun _ => id
    have hgrow : ∀ {span uuid}, OnTrack state state.trace.packets span uuid →
        OnTrack state' state'.trace.packets span uuid := fun hold => hold.mono hextends hkept hsub
    constructor
    · exact h.frames.step hthread
        (((h.frames thread frame hmem).act h.entry hpre hperform).mono hextends hkept hsub)
        fun _ _ hvalue => hvalue.mono hextends hkept hsub
    · intro spanId entry uuid hentry huuid
      apply hgrow
      cases entry_after hbase.known.guards hthread hpre hperform hentry with
      | kept hold _ => exact h.entry spanId entry uuid hold huuid
      | inserted metadata parent data tier hcall hinsert heq =>
          subst heq
          obtain ⟨-, -, -, -, -, -, -, hpublishes, -⟩ := hinsert
          change data.trackUuid = some uuid at huuid
          rw [Frame.Publishes, huuid] at hpublishes
          obtain ⟨key, hhead, hparent, -⟩ := hpublishes
          exact created_onTrack hbase hdrawn hmem (h.frames thread frame hmem) hcall hhead rfl
            hparent
      | changed found hguard hold hinstance _ _ _ _ htrack =>
          rw [hinstance]
          rw [htrack] at huuid
          exact h.entry spanId found.entry uuid hold huuid
    · by_cases hwrite : ∃ span calledAt content, action = .sequence (.write span calledAt content)
      · obtain ⟨span, calledAt, content, rfl⟩ := hwrite
        obtain ⟨new, hpackets, -, hspan, rfl, -⟩ := perform_write hperform
        rw [hpackets]
        refine (h.packets.mono fun before packet hold span uuid hthis hslice =>
          hmono (hold span uuid hthis hslice)).concat fun shown uuid hshown hslice => hmono ?_
        rw [hspan] at hshown
        subst hshown
        exact write_onTrack hbase hdrawn h hmem hpre hslice
      · rw [perform_packets hperform
          fun span calledAt content heq => hwrite ⟨span, calledAt, content, heq⟩]
        exact h.packets.mono fun before packet hold span uuid hthis hslice =>
          hmono (hold span uuid hthis hslice)
  ret := fun _ h hthread _ _ => ⟨h.frames.pop hthread, h.entry, h.packets⟩
  call := by
    rintro state frames thread call prog state' ⟨hbase, -⟩ h - - hcall -
    obtain ⟨registry, haccept, -, rfl, -⟩ := hbase.known.ledger.call_admits hcall
    obtain ⟨hissued, hparents⟩ := accept_extends haccept
    have hextends : state.registry.Extends { registry with
        depth := Function.update registry.depth thread (registry.depth thread + 1) } :=
      ⟨hissued, hparents⟩
    refine ⟨h.frames.push ⟨?_, fun _ _ htaken => by cases htaken⟩ fun _ _ hvalue =>
        hvalue.mono hextends (fun _ => id) fun _ => id,
      fun spanId entry uuid hentry huuid =>
        (h.entry spanId entry uuid hentry huuid).mono hextends (fun _ => id) fun _ => id,
      h.packets.mono fun before packet hold span uuid hthis hslice =>
        (hold span uuid hthis hslice).mono hextends (fun _ => id) fun _ => id⟩
    intro spanId metadata parent hnew
    change call = .newSpan spanId metadata parent at hnew
    subst hnew
    obtain ⟨hnext, hparent⟩ := accept_created haccept
    refine ⟨?_, ?_, fun _ => rfl, rfl⟩
    · change state.registry.nextInstance < registry.nextInstance
      rw [hnext]
      exact Nat.lt_succ_self _
    · change registry.parents state.registry.nextInstance = parent
      rw [hparent, Function.update_self]

theorem roots_new (nextSequenceId : Nat) : Roots (State.new nextSequenceId) fun _ => [] where
  frames := fun _ _ hmem => by cases hmem
  entry := fun _ _ _ hentry => by cases hentry
  packets := holds_nil

end Roots

end TracingPerfetto.Layer
