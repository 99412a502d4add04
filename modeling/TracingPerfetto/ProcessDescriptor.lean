import TracingPerfetto.Preamble
import TracingPerfetto.RootTracks

/-!
The descriptor of the process: one callback of all threads claims it, and sends it before
the descriptor of its own thread. Every parent that is no span track is the track that it
describes.
-/

namespace TracingPerfetto.Layer

open TracingPerfetto.Wire TracingPerfetto.Proto
open TracingPerfetto.Schema
open TracingPerfetto.Runtime TracingPerfetto.Sequence TracingPerfetto.TrackEvents
open TracingPerfetto.Counters TracingPerfetto.Threads
open TracingPerfetto.History TracingPerfetto.PacketFields
open TracingPerfetto.SpanStore (SpanId)

/-- The callback has claimed the descriptor of the process and not sent it yet. -/
def Phase.claims : Phase → Bool
  | .claimed | .named _ => true
  | _ => false

/-- The callback knows that the descriptor of the process is claimed. -/
def Phase.introduced : Phase → Bool
  | .claimed | .named _ | .described | .ready => true
  | _ => false

/-- The process that a packet is to describe. -/
def Content.introduces : Content → Option Nat
  | .processDescriptor uuid => some uuid
  | _ => none

/-- The process that a counter track hangs off. -/
def Content.countsFor : Content → Option Nat
  | .body (.counterDescriptor _ _ process) => some process
  | _ => none

theorem Emitted.Reads.introduces {env : Env} {packet : Emitted} (h : packet.Reads env) :
    packet.kind.bind Kind.introduces = packet.content.introduces.map env.bases.uuid := by
  cases hcontent : packet.content with
  | clockSnapshot =>
      obtain ⟨clocks, -, hkind⟩ := h.snapshot hcontent
      rw [hkind]
      rfl
  | processDescriptor uuid =>
      rw [h.process uuid hcontent]
      rfl
  | threadDescriptor =>
      obtain ⟨answers, uuid, -, hkind⟩ := h.thread hcontent
      rw [hkind]
      rfl
  | body body =>
      rw [h.body body hcontent]
      exact (kindOf_follows body).2

theorem Emitted.Reads.counterTrack {env : Env} {packet : Emitted} (h : packet.Reads env)
    {uuid parentUuid : Nat} {name : Bytes}
    (hkind : packet.kind = some (.counterTrack uuid name parentUuid)) :
    ∃ process, packet.content.countsFor = some process ∧
      parentUuid = env.bases.uuid process := by
  obtain ⟨body, hcontent, hbody⟩ := h.follows hkind rfl
  cases body with
  | counterDescriptor used text process =>
      cases hbody
      exact ⟨process, by rw [hcontent]; rfl, rfl⟩
  | _ => cases hbody

structure Introduced (state : State) (frames : Frames) : Prop where
  unclaimed : state.shared.processDescEmitted = false →
    (∀ packet ∈ state.trace.packets, packet.content = .clockSnapshot) ∧
      Every (fun _ frame => frame.phase.introduced = false) frames
  claiming : Every (fun _ frame => frame.phase.claims = true →
    ∀ packet ∈ state.trace.packets, packet.content.introduces = none) frames
  alone : ∀ thread other, ∀ frame ∈ frames thread, ∀ value ∈ frames other,
    frame.phase.claims = true → value.phase.claims = true → thread = other
  once : state.trace.packets.Pairwise fun packet later =>
    packet.content.introduces = none ∨ later.content.introduces = none
  claimed : state.shared.processDescEmitted = true →
    (∃ packet ∈ state.trace.packets, packet.content.introduces ≠ none) ∨
      ∃ thread, ∃ frame ∈ frames thread, frame.phase.claims = true
  named : Every (fun _ frame => ∀ uuid, frame.phase = .named uuid →
    state.shared.processTrack = some uuid) frames
  process : ∀ packet ∈ state.trace.packets, ∀ uuid, packet.content.introduces = some uuid →
    state.shared.processTrack = some uuid
  counters : ∀ packet ∈ state.trace.packets, ∀ uuid, packet.content.countsFor = some uuid →
    state.shared.processTrack = some uuid

section Introduced

variable {env : Env} {state state' : State} {frames : Frames} {thread : ThreadId}
  {frame : Frame} {rest : List Frame} {choice : Choice}

theorem calm_unclaimed {phase : Phase} (h : phase.calm = true) : phase.claims = false := by
  cases phase <;> first | rfl | cases h

theorem unintroduced_unclaimed {phase : Phase} (h : phase.introduced = false) :
    phase.claims = false := by
  cases phase <;> first | rfl | cases h

theorem next_claims {action : Act} {reply : action.Reply} (hpre : pre env frame action)
    (hclaim : action ≠ .shared .claimProcessDescriptor)
    (hname : action ≠ .shared .processTrackUuid)
    (hsend : ∀ span calledAt uuid,
      action ≠ .sequence (.write span calledAt (.processDescriptor uuid))) :
    ((next frame action reply).phase.claims = true ↔ frame.phase.claims = true) ∧
      ∀ uuid, (next frame action reply).phase = .named uuid → frame.phase = .named uuid := by
  have hsame : (next frame action reply).phase = frame.phase →
      ((next frame action reply).phase.claims = true ↔ frame.phase.claims = true) ∧
        ∀ uuid, (next frame action reply).phase = .named uuid → frame.phase = .named uuid :=
    fun heq => by rw [heq]; exact ⟨Iff.rfl, fun _ => id⟩
  have hneither : ∀ phase, (next frame action reply).phase = phase → phase.claims = false →
      frame.phase.claims = false →
      ((next frame action reply).phase.claims = true ↔ frame.phase.claims = true) ∧
        ∀ uuid, (next frame action reply).phase = .named uuid → frame.phase = .named uuid := by
    rintro phase rfl hafter hbefore
    rw [hafter, hbefore]
    exact ⟨Iff.rfl, fun uuid hnamed => by rw [hnamed] at hafter; cases hafter⟩
  by_cases hstarts : action.starts = true
  · cases action with
    | shared act =>
        cases act with
        | claimProcessDescriptor => exact absurd rfl hclaim
        | processTrackUuid => exact absurd rfl hname
        | _ => cases hstarts
    | context act =>
        cases act with
        | dropGuard => exact hneither .closed rfl rfl (calm_unclaimed hpre.2)
        | insert => exact hsame rfl
        | _ => cases hstarts
    | sequence act =>
        cases act with
        | newWriter => exact hneither .fresh rfl rfl (calm_unclaimed hpre.2)
        | initialized =>
            have hbefore : frame.phase.claims = false := by
              rcases hpre.2 with hphase | hphase <;> rw [hphase] <;> rfl
            cases reply with
            | true => exact hneither .ready rfl rfl hbefore
            | false => exact hneither .unmarked rfl rfl hbefore
        | markInitialized => exact hneither .marked rfl rfl (by rw [hpre.2]; rfl)
        | timestamp =>
            by_cases hphase : frame.phase = .marked
            · exact hneither .stamped (if_pos hphase) rfl (by rw [hphase]; rfl)
            · exact hsame (if_neg hphase)
        | write span calledAt content =>
            obtain ⟨-, -, hemits, -⟩ := hpre
            cases content with
            | clockSnapshot =>
                have hphase : frame.phase = .stamped := hemits
                exact hneither .opened rfl rfl (by rw [hphase]; rfl)
            | processDescriptor uuid => exact absurd rfl (hsend span calledAt uuid)
            | threadDescriptor =>
                have hphase : frame.phase = .described := hemits
                exact hneither .ready rfl rfl (by rw [hphase]; rfl)
            | body body => exact hsame (by cases body <;> rfl)
        | _ => cases hstarts
    | pools | spans | registry | format => cases hstarts
  · rw [Bool.not_eq_true] at hstarts
    exact hsame (next_phase frame action reply hstarts).1

theorem emitted_kept {action : Act} {reply : action.Reply}
    (h : perform env thread action choice state = some (reply, state'))
    (hclaim : action ≠ .shared .claimProcessDescriptor) :
    state'.shared.processDescEmitted = state.shared.processDescEmitted := by
  by_cases hshared : ∃ act, action = .shared act
  · obtain ⟨act, rfl⟩ := hshared
    simp only [perform, Option.some.injEq, Prod.mk.injEq] at h
    rw [← h.2]
    cases act with
    | claimProcessDescriptor => exact absurd rfl hclaim
    | processTrackUuid | counterTrackUuid =>
        simp only [SharedAct.perform]
        split <;> rfl
    | _ => rfl
  · exact (shared_same h fun act heq => hshared ⟨act, heq⟩).2.2.2

theorem complete_threadDescriptor {packets : List Emitted} {thread : ThreadId}
    (h : Complete (contentsOf packets thread)) :
    ∃ packet ∈ packets, packet.content = .threadDescriptor := by
  obtain ⟨process, bodies, hcontents⟩ := h
  have hmem : Content.threadDescriptor ∈ contentsOf packets thread := by
    rw [hcontents]
    exact List.mem_append_right _ List.mem_cons_self
  obtain ⟨packet, hpacket, hcontent⟩ := List.mem_map.1 hmem
  exact ⟨packet, (List.mem_filter.1 hpacket).1, hcontent⟩

theorem unclaimed_step (h : Introduced state frames) (hthread : frames thread = frame :: rest)
    {action : Act} {reply : action.Reply} (hpre : pre env frame action)
    (hperform : perform env thread action choice state = some (reply, state'))
    (hstarted : Preambles state'
      (Function.update frames thread (next frame action reply :: rest)))
    (hemitted : state'.shared.processDescEmitted = false) :
    (∀ packet ∈ state'.trace.packets, packet.content = .clockSnapshot) ∧
      Every (fun _ frame => frame.phase.introduced = false)
        (Function.update frames thread (next frame action reply :: rest)) := by
  have hclaim : action ≠ .shared .claimProcessDescriptor := by
    rintro rfl
    simp only [perform, SharedAct.perform, Option.some.injEq, Prod.mk.injEq] at hperform
    rw [← hperform.2] at hemitted
    cases hemitted
  rw [emitted_kept hperform hclaim] at hemitted
  obtain ⟨hpackets, hframes⟩ := h.unclaimed hemitted
  have hbefore : frame.phase.introduced = false := hframes thread frame (Guards.top_mem hthread)
  have hstep : (next frame action reply).phase.introduced = false →
      (∀ span calledAt content, action = .sequence (.write span calledAt content) →
        content = .clockSnapshot) →
      (∀ packet ∈ state'.trace.packets, packet.content = .clockSnapshot) ∧
        Every (fun _ frame => frame.phase.introduced = false)
          (Function.update frames thread (next frame action reply :: rest)) := by
    intro hafter hwrites
    refine ⟨fun packet hmem => ?_, hframes.step hthread hafter fun _ _ => id⟩
    by_cases hwrite : ∃ span calledAt content, action = .sequence (.write span calledAt content)
    · obtain ⟨span, calledAt, content, rfl⟩ := hwrite
      obtain ⟨new, hnew, -, -, hcontent, -⟩ := perform_write hperform
      rw [hnew] at hmem
      rcases List.mem_append.1 hmem with hold | hlast
      · exact hpackets packet hold
      · rw [List.mem_singleton] at hlast
        rw [hlast, hcontent]
        exact hwrites span calledAt content rfl
    · rw [perform_packets hperform
        fun span calledAt content heq => hwrite ⟨span, calledAt, content, heq⟩] at hmem
      exact hpackets packet hmem
  by_cases hstarts : action.starts = true
  · cases action with
    | shared act =>
        cases act with
        | claimProcessDescriptor => exact absurd rfl hclaim
        | processTrackUuid =>
            refine hstep ?_ fun _ _ _ heq => by cases heq
            by_cases hphase : frame.phase = .claimed
            · rw [hphase] at hbefore
              cases hbefore
            · exact (congrArg Phase.introduced (if_neg hphase)).trans hbefore
        | _ => cases hstarts
    | context act =>
        cases act with
        | dropGuard => exact hstep rfl fun _ _ _ heq => by cases heq
        | insert => exact hstep hbefore fun _ _ _ heq => by cases heq
        | _ => cases hstarts
    | sequence act =>
        cases act with
        | newWriter | markInitialized => exact hstep rfl fun _ _ _ heq => by cases heq
        | initialized =>
            refine hstep ?_ fun _ _ _ heq => by cases heq
            cases reply with
            | false => rfl
            | true =>
                -- a sequence that is initialized has the descriptor of its thread
                have hcomplete := (hstarted.started thread).shape _ (by
                  rw [Function.update_self]
                  exact List.mem_cons_self)
                obtain ⟨packet, hmem, hcontent⟩ := complete_threadDescriptor hcomplete
                rw [perform_packets hperform (by simp)] at hmem
                rw [hpackets packet hmem] at hcontent
                cases hcontent
        | timestamp =>
            refine hstep ?_ fun _ _ _ heq => by cases heq
            by_cases hphase : frame.phase = .marked
            · exact congrArg Phase.introduced (if_pos hphase)
            · exact (congrArg Phase.introduced (if_neg hphase)).trans hbefore
        | write span calledAt content =>
            obtain ⟨-, -, hemits, -⟩ := hpre
            cases content with
            | clockSnapshot =>
                refine hstep rfl fun _ _ _ heq => ?_
                cases heq
                rfl
            | processDescriptor uuid =>
                have hphase : frame.phase = .named uuid := hemits
                rw [hphase] at hbefore
                cases hbefore
            | threadDescriptor =>
                have hphase : frame.phase = .described := hemits
                rw [hphase] at hbefore
                cases hbefore
            | body body =>
                rw [hemits.1] at hbefore
                cases hbefore
        | _ => cases hstarts
    | pools | spans | registry | format => cases hstarts
  · rw [Bool.not_eq_true] at hstarts
    refine hstep ?_ fun span calledAt content heq => ?_
    · rw [(next_phase frame action reply hstarts).1]
      exact hbefore
    · subst heq
      cases hstarts

theorem packet_before {action : Act} {reply : action.Reply}
    (h : perform env thread action choice state = some (reply, state')) {packet : Emitted}
    (hmem : packet ∈ state'.trace.packets) :
    packet ∈ state.trace.packets ∨ ∃ span calledAt,
      action = .sequence (.write span calledAt packet.content) := by
  by_cases hwrite : ∃ span calledAt content, action = .sequence (.write span calledAt content)
  · obtain ⟨span, calledAt, content, rfl⟩ := hwrite
    obtain ⟨new, hnew, -, -, rfl, -⟩ := perform_write h
    rw [hnew] at hmem
    rcases List.mem_append.1 hmem with hold | hlast
    · exact .inl hold
    · rw [List.mem_singleton] at hlast
      subst hlast
      exact .inr ⟨span, calledAt, rfl⟩
  · rw [perform_packets h
      fun span calledAt content heq => hwrite ⟨span, calledAt, content, heq⟩] at hmem
    exact .inl hmem

theorem introduces_write {content : Content} (h : content.introduces ≠ none) :
    ∃ uuid, content = .processDescriptor uuid := by
  cases content with
  | processDescriptor uuid => exact ⟨uuid, rfl⟩
  | _ => exact absurd rfl h

theorem mem_after {values : List Frame} {other : ThreadId} {value : Frame}
    (hmem : value ∈ Function.update frames thread (frame :: values) other) :
    (other = thread ∧ value = frame) ∨ (other = thread ∧ value ∈ values) ∨
      (other ≠ thread ∧ value ∈ frames other) := by
  by_cases hother : other = thread
  · subst hother
    rw [Function.update_self] at hmem
    rcases List.mem_cons.1 hmem with rfl | hrest
    · exact .inl ⟨rfl, rfl⟩
    · exact .inr (.inl ⟨rfl, hrest⟩)
  · rw [Function.update_of_ne hother] at hmem
    exact .inr (.inr ⟨hother, hmem⟩)

theorem alone_step (h : Introduced state frames) (hthread : frames thread = frame :: rest)
    (hrest : ∀ value ∈ rest, value.phase.claims = false) {frame' : Frame}
    (htop : frame'.phase.claims = true → frame.phase.claims = true ∨
      ∀ other, ∀ value ∈ frames other, value.phase.claims = false) :
    ∀ first second, ∀ value ∈ Function.update frames thread (frame' :: rest) first,
      ∀ value' ∈ Function.update frames thread (frame' :: rest) second,
        value.phase.claims = true → value'.phase.claims = true → first = second := by
  have hfrom : ∀ other, ∀ value ∈ Function.update frames thread (frame' :: rest) other,
      value.phase.claims = true → other = thread ∧ frame'.phase.claims = true ∨
        other ≠ thread ∧ ∃ old ∈ frames other, old.phase.claims = true := by
    intro other value hmem hclaims
    rcases mem_after hmem with ⟨rfl, rfl⟩ | ⟨rfl, hbelow⟩ | ⟨hother, hold⟩
    · exact .inl ⟨rfl, hclaims⟩
    · rw [hrest value hbelow] at hclaims
      cases hclaims
    · exact .inr ⟨hother, value, hold, hclaims⟩
  have htogether : ∀ other, other ≠ thread → frame'.phase.claims = true →
      (∃ old ∈ frames other, old.phase.claims = true) → False := by
    rintro other hother hclaims ⟨old, hold, hold'⟩
    rcases htop hclaims with hbefore | hnobody
    · exact hother (h.alone other thread old hold frame (Guards.top_mem hthread) hold' hbefore)
    · rw [hnobody other old hold] at hold'
      cases hold'
  intro first second value hvalue value' hvalue' hclaims hclaims'
  rcases hfrom first value hvalue hclaims with ⟨rfl, htop'⟩ | ⟨hfirst, old, hold, holdClaims⟩
  · rcases hfrom second value' hvalue' hclaims' with ⟨rfl, -⟩ | ⟨hsecond, hsome⟩
    · rfl
    · exact (htogether second hsecond htop' hsome).elim
  · rcases hfrom second value' hvalue' hclaims' with
      ⟨rfl, htop'⟩ | ⟨hsecond, old', hold', hclaims''⟩
    · exact (htogether first hfirst htop' ⟨old, hold, holdClaims⟩).elim
    · exact h.alone first second old hold old' hold' holdClaims hclaims''

theorem mem_step (hthread : frames thread = frame :: rest) {frame' : Frame} {other : ThreadId}
    {value : Frame} (hmem : value ∈ frames other) (hne : value ≠ frame ∨ other ≠ thread) :
    value ∈ Function.update frames thread (frame' :: rest) other := by
  by_cases hother : other = thread
  · subst hother
    rw [hthread] at hmem
    rw [Function.update_self]
    rcases List.mem_cons.1 hmem with rfl | hbelow
    · exact absurd rfl (hne.resolve_right (not_not.2 rfl))
    · exact List.mem_cons_of_mem _ hbelow
  · rwa [Function.update_of_ne hother]

theorem countsFor_emits {span : Option Nat} {calledAt : Nat} {content : Content}
    (hdrawn : Drawn state frames) (hmem : frame ∈ frames thread)
    (hpre : pre env frame (.sequence (.write span calledAt content))) {uuid : Nat}
    (hcounts : content.countsFor = some uuid) : state.shared.processTrack = some uuid := by
  obtain ⟨-, -, hemits, -⟩ := hpre
  cases content with
  | body body =>
      cases body with
      | counterDescriptor counter name process =>
          obtain ⟨-, -, hprocess⟩ := hemits
          cases hcounts
          exact hdrawn.processes thread frame hmem uuid hprocess
      | _ => cases hcounts
  | _ => cases hcounts

theorem counters_after (h : Introduced state frames) (hdrawn : Drawn state frames)
    (hmem : frame ∈ frames thread) {action : Act} {reply : action.Reply}
    (hpre : pre env frame action)
    (hperform : perform env thread action choice state = some (reply, state')) :
    ∀ packet ∈ state'.trace.packets, ∀ uuid, packet.content.countsFor = some uuid →
      state'.shared.processTrack = some uuid := by
  intro packet hpacket uuid hcounts
  apply processTrack_kept hperform
  rcases packet_before hperform hpacket with hold | ⟨span, calledAt, rfl⟩
  · exact h.counters packet hold uuid hcounts
  · exact countsFor_emits hdrawn hmem hpre hcounts

theorem process_after (h : Introduced state frames) {action : Act} {reply : action.Reply}
    (hperform : perform env thread action choice state = some (reply, state'))
    (hsends : ∀ span calledAt uuid,
      action = .sequence (.write span calledAt (.processDescriptor uuid)) →
      state.shared.processTrack = some uuid) :
    ∀ packet ∈ state'.trace.packets, ∀ uuid, packet.content.introduces = some uuid →
      state'.shared.processTrack = some uuid := by
  intro packet hpacket uuid hintroduces
  apply processTrack_kept hperform
  rcases packet_before hperform hpacket with hold | ⟨span, calledAt, hwrite⟩
  · exact h.process packet hold uuid hintroduces
  · obtain ⟨sent, hcontent⟩ := introduces_write (by rw [hintroduces]; simp)
    rw [hcontent] at hintroduces hwrite
    cases hintroduces
    exact hsends span calledAt uuid hwrite

/-- Somebody has claimed the descriptor, and the top callback still has it if it was that. -/
theorem claimed_after (h : Introduced state frames) (hthread : frames thread = frame :: rest)
    {frame' : Frame} (hclaims : frame.phase.claims = true → frame'.phase.claims = true)
    (hsub : state.trace.packets ⊆ state'.trace.packets)
    (hsome : state.shared.processDescEmitted = true) :
    (∃ packet ∈ state'.trace.packets, packet.content.introduces ≠ none) ∨
      ∃ other, ∃ value ∈ Function.update frames thread (frame' :: rest) other,
        value.phase.claims = true := by
  rcases h.claimed hsome with ⟨packet, hpacket, hsent⟩ | ⟨other, value, hvalue, hvalueClaims⟩
  · exact .inl ⟨packet, hsub hpacket, hsent⟩
  · right
    by_cases hsame : value = frame ∧ other = thread
    · obtain ⟨rfl, rfl⟩ := hsame
      refine ⟨other, frame', ?_, hclaims hvalueClaims⟩
      rw [Function.update_self]
      exact List.mem_cons_self
    · exact ⟨other, value, mem_step hthread hvalue (not_and_or.1 hsame), hvalueClaims⟩

theorem introduced_claim (h : Introduced state frames) (hledger : Ledger state frames)
    (hdrawn : Drawn state frames) (hthread : frames thread = frame :: rest) {reply : Bool}
    (hpre : pre env frame (.shared .claimProcessDescriptor))
    (hperform : perform env thread (.shared .claimProcessDescriptor) choice state =
      some (reply, state')) :
    Introduced state' (Function.update frames thread
      (next frame (.shared .claimProcessDescriptor) reply :: rest)) := by
  have hmem : frame ∈ frames thread := Guards.top_mem hthread
  have hrest : ∀ value ∈ rest, value.phase.claims = false := fun value hvalue =>
    calm_unclaimed (below_calm hledger hthread value hvalue)
  have hcounters := counters_after h hdrawn hmem hpre hperform
  have hprocess := process_after h hperform (by simp)
  have hphase : frame.phase = .opened := hpre
  simp only [perform, SharedAct.perform, Option.some.injEq, Prod.mk.injEq] at hperform
  obtain ⟨rfl, rfl⟩ := hperform
  cases hemitted : state.shared.processDescEmitted with
  | false =>
      obtain ⟨hpackets, hframes⟩ := h.unclaimed hemitted
      refine ⟨fun hfalse => (by cases hfalse), ?_, ?_, h.once, fun _ => .inr ?_, ?_, hprocess,
        hcounters⟩
      · refine h.claiming.step hthread (fun _ packet hpacket => ?_) fun _ _ hvalue => hvalue
        rw [hpackets packet hpacket]
        rfl
      · exact alone_step h hthread hrest fun _ => .inr fun other value hvalue =>
          unintroduced_unclaimed (hframes other value hvalue)
      · refine ⟨thread, next frame (.shared .claimProcessDescriptor) true, ?_, rfl⟩
        rw [Function.update_self]
        exact List.mem_cons_self
      · exact h.named.step hthread (fun uuid hnamed => by cases hnamed) fun _ _ hvalue => hvalue
  | true =>
      refine ⟨fun hfalse => (by cases hfalse), ?_, ?_, h.once,
        fun _ => claimed_after h hthread (fun hclaims => ?_) (fun _ => id) hemitted, ?_, hprocess,
        hcounters⟩
      · exact h.claiming.step hthread (fun hclaims => by cases hclaims) fun _ _ hvalue => hvalue
      · exact alone_step h hthread hrest fun hclaims => by cases hclaims
      · rw [hphase] at hclaims
        cases hclaims
      · exact h.named.step hthread (fun uuid hnamed => by cases hnamed) fun _ _ hvalue => hvalue

theorem introduced_send (h : Introduced state frames) (hledger : Ledger state frames)
    (hdrawn : Drawn state frames) (hthread : frames thread = frame :: rest) {span : Option Nat}
    {calledAt uuid : Nat} {reply : Unit}
    (hpre : pre env frame (.sequence (.write span calledAt (.processDescriptor uuid))))
    (hperform : perform env thread (.sequence (.write span calledAt (.processDescriptor uuid)))
      choice state = some (reply, state'))
    (hafter : Preambles state' (Function.update frames thread
      (next frame (.sequence (.write span calledAt (.processDescriptor uuid))) reply :: rest))) :
    Introduced state' (Function.update frames thread
      (next frame (.sequence (.write span calledAt (.processDescriptor uuid))) reply :: rest)) := by
  have hmem : frame ∈ frames thread := Guards.top_mem hthread
  have hphase : frame.phase = .named uuid := hpre.2.2.1
  have hbefore : frame.phase.claims = true := by
    rw [hphase]
    rfl
  have hnone : ∀ old ∈ state.trace.packets, old.content.introduces = none :=
    h.claiming thread frame hmem hbefore
  have hnobody : ∀ other, ∀ value ∈ Function.update frames thread
      (next frame (.sequence (.write span calledAt (.processDescriptor uuid))) reply :: rest)
        other, value.phase.claims = false := by
    intro other value hvalue
    rcases mem_after hvalue with ⟨rfl, rfl⟩ | ⟨rfl, hbelow⟩ | ⟨hother, hold⟩
    · rfl
    · exact calm_unclaimed (below_calm hledger hthread value hbelow)
    · by_contra hclaims
      rw [Bool.not_eq_false] at hclaims
      exact hother (h.alone other thread value hold frame hmem hclaims hbefore)
  obtain ⟨packet, hpackets, -, -, hcontent, -⟩ := perform_write hperform
  refine ⟨unclaimed_step h hthread hpre hperform hafter, fun other value hvalue hclaims => ?_,
    fun first second value hvalue value' hvalue' hclaims => ?_, ?_, fun _ => .inl ⟨packet, ?_, ?_⟩,
    ?_, process_after h hperform fun span' calledAt' uuid' heq => ?_,
    counters_after h hdrawn hmem hpre hperform⟩
  · rw [hnobody other value hvalue] at hclaims
    cases hclaims
  · rw [hnobody first value hvalue] at hclaims
    cases hclaims
  · rw [hpackets, List.pairwise_append]
    exact ⟨h.once, List.pairwise_singleton _ _, fun old hold _ _ => .inl (hnone old hold)⟩
  · rw [hpackets]
    exact List.mem_append_right _ List.mem_cons_self
  · rw [hcontent]
    exact Option.some_ne_none _
  · exact h.named.step hthread (fun other hnamed => by cases hnamed)
      fun _ _ hvalue other hnamed => processTrack_kept hperform (hvalue other hnamed)
  · cases heq
    exact h.named thread frame hmem uuid hphase

/-- A step that neither claims nor sends the descriptor; it may name the process. -/
theorem introduced_other (h : Introduced state frames) (hledger : Ledger state frames)
    (hdrawn : Drawn state frames) (hthread : frames thread = frame :: rest) {action : Act}
    {reply : action.Reply} (hpre : pre env frame action)
    (hperform : perform env thread action choice state = some (reply, state'))
    (hafter : Preambles state'
      (Function.update frames thread (next frame action reply :: rest)))
    (hclaim : action ≠ .shared .claimProcessDescriptor)
    (hsend : ∀ span calledAt uuid,
      action ≠ .sequence (.write span calledAt (.processDescriptor uuid)))
    (hclaims : (next frame action reply).phase.claims = true ↔ frame.phase.claims = true)
    (hnamed : ∀ uuid, (next frame action reply).phase = .named uuid →
      state'.shared.processTrack = some uuid) :
    Introduced state' (Function.update frames thread (next frame action reply :: rest)) := by
  have hmem : frame ∈ frames thread := Guards.top_mem hthread
  have hrest : ∀ value ∈ rest, value.phase.claims = false := fun value hvalue =>
    calm_unclaimed (below_calm hledger hthread value hvalue)
  obtain ⟨packets, hpackets⟩ := packets_grow hperform
  have hquiet : ∀ packet ∈ packets, packet.content.introduces = none := by
    intro packet hpacket
    by_contra hsome
    obtain ⟨uuid, hcontent⟩ := introduces_write hsome
    by_cases hwrite : ∃ span calledAt content, action = .sequence (.write span calledAt content)
    · obtain ⟨span, calledAt, content, rfl⟩ := hwrite
      obtain ⟨new, hnew, -, -, rfl, -⟩ := perform_write hperform
      rw [hnew, List.append_cancel_left_eq] at hpackets
      subst hpackets
      rw [List.mem_singleton] at hpacket
      subst hpacket
      exact hsend span calledAt uuid (by rw [hcontent])
    · rw [perform_packets hperform
        fun span calledAt content heq => hwrite ⟨span, calledAt, content, heq⟩,
        List.self_eq_append_right] at hpackets
      subst hpackets
      cases hpacket
  have hclaiming : (∀ packet ∈ state.trace.packets, packet.content.introduces = none) →
      ∀ packet ∈ state'.trace.packets, packet.content.introduces = none := by
    intro hnone packet hpacket
    rw [hpackets] at hpacket
    exact (List.mem_append.1 hpacket).elim (hnone packet) (hquiet packet)
  refine ⟨unclaimed_step h hthread hpre hperform hafter, ?_, ?_, ?_, fun hsome => ?_, ?_,
    process_after h hperform fun span calledAt uuid heq => absurd heq (hsend span calledAt uuid),
    counters_after h hdrawn hmem hpre hperform⟩
  · exact h.claiming.step hthread
      (fun hthis => hclaiming (h.claiming thread frame hmem (hclaims.1 hthis)))
      fun _ _ hvalue hvalueClaims => hclaiming (hvalue hvalueClaims)
  · exact alone_step h hthread hrest fun hthis => .inl (hclaims.1 hthis)
  · rw [hpackets, List.pairwise_append]
    refine ⟨h.once, ?_, fun _ _ later hlater => .inr (hquiet later hlater)⟩
    exact List.pairwise_of_forall_mem_list fun packet hpacket _ _ => .inl (hquiet packet hpacket)
  · rw [emitted_kept hperform hclaim] at hsome
    refine claimed_after h hthread hclaims.2 ?_ hsome
    rw [hpackets]
    exact List.subset_append_left _ _
  · exact h.named.step hthread hnamed
      fun _ _ hvalue uuid hvalueNamed => processTrack_kept hperform (hvalue uuid hvalueNamed)

theorem name_claims {reply : Nat}
    (hperform : perform env thread (.shared .processTrackUuid) choice state =
      some (reply, state')) :
    ((next frame (.shared .processTrackUuid) reply).phase.claims = true ↔
        frame.phase.claims = true) ∧ state'.shared.processTrack = some reply ∧
      ∀ uuid, (next frame (.shared .processTrackUuid) reply).phase = .named uuid →
        uuid = reply ∨ frame.phase = .named uuid := by
  refine ⟨?_, ?_, fun uuid hnamed => ?_⟩
  · by_cases hphase : frame.phase = .claimed
    · rw [hphase]
      exact iff_of_true (congrArg Phase.claims (if_pos hphase)) rfl
    · have hsame : (next frame (.shared .processTrackUuid) reply).phase = frame.phase :=
        if_neg hphase
      rw [hsame]
  · simp only [perform, SharedAct.perform, Option.some.injEq, Prod.mk.injEq] at hperform
    obtain ⟨rfl, rfl⟩ := hperform
    cases htracked : state.shared.processTrack with
    | none => simp
    | some known => simp [htracked]
  · by_cases hphase : frame.phase = .claimed
    · have hsame : (next frame (.shared .processTrackUuid) reply).phase = .named reply :=
        if_pos hphase
      rw [hsame] at hnamed
      cases hnamed
      exact .inl rfl
    · have hsame : (next frame (.shared .processTrackUuid) reply).phase = frame.phase :=
        if_neg hphase
      exact .inr (hsame ▸ hnamed)

theorem introduced_kept (env : Env) : KeepsInv env AnyCall
    (fun state frames => (Tracking env state frames ∧ Drawn state frames) ∧
      Preambles state frames) Introduced where
  act := by
    rintro state frames thread frame rest action choice reply state' ⟨⟨hbase, hdrawn⟩, -⟩ h hthread
      hpre hperform ⟨-, hafter⟩
    change perform env thread action choice state = some (reply, state') at hperform
    change pre env frame action at hpre
    have hledger := hbase.known.ledger
    have hmem : frame ∈ frames thread := Guards.top_mem hthread
    by_cases hclaim : action = .shared .claimProcessDescriptor
    · subst hclaim
      exact introduced_claim h hledger hdrawn hthread hpre hperform
    by_cases hsend : ∃ span calledAt uuid,
        action = .sequence (.write span calledAt (.processDescriptor uuid))
    · obtain ⟨span, calledAt, uuid, rfl⟩ := hsend
      exact introduced_send h hledger hdrawn hthread hpre hperform hafter
    have hquiet : ∀ span calledAt uuid,
        action ≠ .sequence (.write span calledAt (.processDescriptor uuid)) :=
      fun span calledAt uuid heq => hsend ⟨span, calledAt, uuid, heq⟩
    by_cases hname : action = .shared .processTrackUuid
    · subst hname
      obtain ⟨hclaims, htrack, hnamed⟩ := @name_claims _ _ _ thread frame choice reply hperform
      refine introduced_other h hledger hdrawn hthread hpre hperform hafter hclaim hquiet hclaims
        fun uuid hthis => ?_
      rcases hnamed uuid hthis with rfl | hbefore
      · exact htrack
      · exact processTrack_kept hperform (h.named thread frame hmem uuid hbefore)
    · obtain ⟨hclaims, hnamed⟩ := next_claims hpre hclaim hname hquiet
      exact introduced_other h hledger hdrawn hthread hpre hperform hafter hclaim hquiet hclaims
        fun uuid hthis => processTrack_kept hperform
          (h.named thread frame hmem uuid (hnamed uuid hthis))
  ret := by
    rintro state frames thread frame rest - h hthread hfinal -
    have hmem : ∀ other, ∀ value ∈ Function.update frames thread rest other,
        value ∈ frames other := by
      intro other value hvalue
      by_cases hother : other = thread
      · subst hother
        rw [Function.update_self] at hvalue
        rw [hthread]
        exact List.mem_cons_of_mem _ hvalue
      · rwa [Function.update_of_ne hother] at hvalue
    refine ⟨fun hfalse => ⟨(h.unclaimed hfalse).1, (h.unclaimed hfalse).2.pop hthread⟩,
      h.claiming.pop hthread, fun first second value hvalue value' hvalue' =>
        h.alone first second value (hmem first value hvalue) value' (hmem second value' hvalue'),
      h.once, fun hsome => (h.claimed hsome).imp id ?_, h.named.pop hthread, h.process, h.counters⟩
    rintro ⟨other, value, hvalue, hclaims⟩
    refine ⟨other, value, ?_, hclaims⟩
    by_cases hother : other = thread
    · subst hother
      rw [hthread] at hvalue
      rw [Function.update_self]
      rcases List.mem_cons.1 hvalue with rfl | hrest
      · rw [hfinal.phase] at hclaims
        cases hclaims
      · exact hrest
    · rwa [Function.update_of_ne hother]
  call := by
    rintro state frames thread call prog state' ⟨⟨hbase, -⟩, -⟩ h - - hcall -
    obtain ⟨registry, -, -, rfl, -⟩ := hbase.known.ledger.call_admits hcall
    have hfrom : ∀ other, ∀ value ∈ Function.update frames thread
        (enter thread call state :: frames thread) other, value.phase.claims = true →
          value ∈ frames other := by
      intro other value hvalue hclaims
      rcases mem_after hvalue with ⟨rfl, rfl⟩ | ⟨rfl, hold⟩ | ⟨-, hold⟩
      · cases hclaims
      · exact hold
      · exact hold
    refine ⟨fun hfalse => ⟨(h.unclaimed hfalse).1,
        (h.unclaimed hfalse).2.push rfl fun _ _ => id⟩,
      h.claiming.push (fun hclaims => by cases hclaims) fun _ _ => id,
      fun first second value hvalue value' hvalue' hclaims hclaims' =>
        h.alone first second value (hfrom first value hvalue hclaims) value'
          (hfrom second value' hvalue' hclaims') hclaims hclaims',
      h.once, fun hsome => (h.claimed hsome).imp id ?_,
      h.named.push (fun uuid hnamed => by cases hnamed) fun _ _ => id, h.process, h.counters⟩
    rintro ⟨other, value, hvalue, hclaims⟩
    refine ⟨other, value, ?_, hclaims⟩
    by_cases hother : other = thread
    · subst hother
      rw [Function.update_self]
      exact List.mem_cons_of_mem _ hvalue
    · rwa [Function.update_of_ne hother]

theorem introduced_new (nextSequenceId : Nat) :
    Introduced (State.new nextSequenceId) fun _ => [] where
  unclaimed := fun _ => ⟨fun _ hmem => (by cases hmem), fun _ _ hmem => (by cases hmem)⟩
  claiming := fun _ _ hmem => by cases hmem
  alone := fun _ _ _ hmem => by cases hmem
  once := .nil
  claimed := fun hsome => by cases hsome
  named := fun _ _ hmem => by cases hmem
  process := fun _ hmem => by cases hmem
  counters := fun _ hmem => by cases hmem

end Introduced

/-! ## Runs -/

/-- What the reader of a sequence learns from the header of a packet. -/
structure Marks (sequenceId flags : Nat) (first : List Nat) (defaults : List (List Field))
    (packet : Emitted) : Prop where
  sequence : varints TracePacket.trustedPacketSequenceId (Op.fields packet.written.calls) =
    [sequenceId]
  flags : varints TracePacket.sequenceFlags (Op.fields packet.written.calls) = [flags]
  first : varints TracePacket.firstPacketOnSequence (Op.fields packet.written.calls) = first
  defaults : messages TracePacket.tracePacketDefaults (Op.fields packet.written.calls) = defaults

def firstFlags : Nat :=
  TracePacket.seqIncrementalStateCleared ||| TracePacket.seqNeedsIncrementalState

def sequenceDefaults (threadTrack : Nat) : List Field :=
  [.varint TracePacketDefaults.timestampClockId ClockSnapshot.customClockId,
    .message TracePacketDefaults.trackEventDefaults
      [.varint TrackEventDefaults.trackUuid threadTrack]]

/-- The snapshot of the clocks, with the one that the timestamps are of, and the process if it
is described here. -/
def Opens (process : Option Nat) (kinds : List (Option Kind)) : Prop :=
  ∃ clocks, ClockSnapshot.customClockId ∈ clocks ∧
    kinds = some (.snapshot clocks) :: process.toList.map fun uuid => some (.process uuid)

/-- A sequence with all its descriptors: after the one of the thread come the tracks and the
events. -/
def Starts (threadTrack : Nat) (kinds : List (Option Kind)) : Prop :=
  ∃ process start rest, Opens process start ∧ kinds = start ++ some (.thread threadTrack) :: rest ∧
    ∀ kind ∈ rest, ∃ shown, kind = some shown ∧ shown.follows = true

/-- The packets of a sequence, as its reader gets them: the first one resets its state, the
others need it, and the descriptors come first. -/
structure Sequenced (sequenceId threadTrack : Nat) (packets : List Emitted) : Prop where
  order : packets = [] ∨ (∃ process, Opens process (packets.map Emitted.kind)) ∨
    Starts threadTrack (packets.map Emitted.kind)
  first : ∀ packet after, packets = packet :: after →
    Marks sequenceId firstFlags [1] [sequenceDefaults threadTrack] packet
  later : ∀ before packet after, packets = before ++ packet :: after → before ≠ [] →
    Marks sequenceId TracePacket.seqNeedsIncrementalState [] [] packet

/-- The processes that the packets describe. -/
def introductions (packets : List Emitted) : List Nat :=
  packets.filterMap fun packet => packet.kind.bind Kind.introduces

/-- What a track hangs off: the process, or a track that was described before. The slices of
the root spans are on tracks that hang off the process. -/
structure Descends (registry : Registry) (process : Nat) (before : List Emitted)
    (packet : Emitted) : Prop where
  counters : ∀ uuid name parentUuid, packet.kind = some (.counterTrack uuid name parentUuid) →
    parentUuid = process
  tracks : ∀ uuid name parentUuid, packet.kind = some (.spanTrack uuid name parentUuid) →
    parentUuid = process ∨ ∃ earlier ∈ before, ∃ parentName grandUuid,
      earlier.kind = some (.spanTrack parentUuid parentName grandUuid)
  roots : ∀ span type trackUuid, packet.span = some span → registry.parents span = none →
    packet.kind = some (.event type (some trackUuid)) → type ≠ TrackEvent.typeInstant →
      ∃ earlier ∈ before, ∃ name, earlier.kind = some (.spanTrack trackUuid name process)

section Runs

variable {env : Env}

theorem Headed.varints {sequenceId threadTrack : Nat} {before : List Emitted} {packet : Emitted}
    (h : Headed env sequenceId threadTrack before packet) (fieldId : Nat) :
    Wire.varints fieldId (Op.fields packet.written.calls) =
      Wire.varints fieldId (Op.fields packet.written.header) := by
  rw [Written.calls, Op.fields_append, varints_append, h.plain.varints, List.append_nil]

theorem Headed.messages {sequenceId threadTrack : Nat} {before : List Emitted} {packet : Emitted}
    (h : Headed env sequenceId threadTrack before packet) :
    Wire.messages TracePacket.tracePacketDefaults (Op.fields packet.written.calls) =
      Wire.messages TracePacket.tracePacketDefaults (Op.fields packet.written.header) := by
  rw [Written.calls, Op.fields_append, messages_append, h.plain.messages, List.append_nil]

theorem Headed.first_marks {sequenceId threadTrack : Nat} {packet : Emitted}
    (h : Headed env sequenceId threadTrack [] packet) :
    Marks sequenceId firstFlags [1] [sequenceDefaults threadTrack] packet := by
  obtain ⟨sequence, timestamp, clockId, rfl, rfl, hheader⟩ := h.first rfl
  constructor
  · rw [h.varints, hheader]
    rfl
  · rw [h.varints, hheader]
    rfl
  · rw [h.varints, hheader]
    rfl
  · rw [h.messages, hheader]
    rfl

theorem Headed.later_marks {sequenceId threadTrack : Nat} {before : List Emitted}
    {packet : Emitted} (h : Headed env sequenceId threadTrack before packet)
    (hbefore : before ≠ []) :
    Marks sequenceId TracePacket.seqNeedsIncrementalState [] [] packet := by
  obtain ⟨delta, hheader⟩ := h.later hbefore
  constructor
  · rw [h.varints, hheader]
    rfl
  · rw [h.varints, hheader]
    rfl
  · rw [h.varints, hheader]
    rfl
  · rw [h.messages, hheader]
    rfl

/-- How far the sequence of a thread is, whoever is in progress. -/
theorem Started.order {contents : List Content} {start : Option Start} {frames : List Frame}
    (h : Started contents start frames) :
    contents = [] ∨ (∃ process, contents = opening process) ∨ Complete contents := by
  by_cases hall : ∀ frame ∈ frames, frame.phase.calm = true
  · exact (h.settled hall).imp id .inr
  · push Not at hall
    obtain ⟨frame, hmem, hbusy⟩ := hall
    have hshape := h.shape frame hmem
    cases hphase : frame.phase with
    | closed | fresh | ready =>
        rw [hphase] at hbusy
        exact absurd rfl hbusy
    | unmarked | marked | stamped =>
        rw [hphase] at hshape
        exact .inl hshape
    | opened | claimed | named =>
        rw [hphase] at hshape
        exact .inr (.inl ⟨none, hshape⟩)
    | described =>
        rw [hphase] at hshape
        exact .inr (.inl hshape)

theorem opens_of_contents {packets : List Emitted} (hreads : ∀ packet ∈ packets, packet.Reads env)
    {process : Option Nat} (h : packets.map Emitted.content = opening process) :
    Opens (process.map env.bases.uuid) (packets.map Emitted.kind) := by
  obtain ⟨snapshot, others, rfl, hsnapshot, hothers⟩ := List.map_eq_cons_iff.1 h
  obtain ⟨clocks, hclock, hkind⟩ := (hreads snapshot List.mem_cons_self).snapshot hsnapshot
  refine ⟨clocks, hclock, ?_⟩
  rw [List.map_cons, hkind]
  cases process with
  | none =>
      rw [List.map_eq_nil_iff.1 hothers]
      rfl
  | some uuid =>
      obtain ⟨descriptor, rest, rfl, hdescriptor, hrest⟩ := List.map_eq_cons_iff.1 hothers
      rw [List.map_eq_nil_iff.1 hrest, List.map_singleton,
        (hreads descriptor (by simp)).process uuid hdescriptor]
      rfl

theorem starts_of_contents {packets : List Emitted} {threadTrack : Nat}
    (hreads : ∀ packet ∈ packets, packet.Reads env)
    (hthread : ∀ packet ∈ packets, packet.content = .threadDescriptor →
      packet.kind = some (.thread threadTrack))
    (h : Complete (packets.map Emitted.content)) :
    Starts threadTrack (packets.map Emitted.kind) := by
  obtain ⟨process, bodies, hcontents⟩ := h
  obtain ⟨start, others, rfl, hstart, hothers⟩ := List.map_eq_append_iff.1 hcontents
  obtain ⟨descriptor, rest, rfl, hdescriptor, hrest⟩ := List.map_eq_cons_iff.1 hothers
  refine ⟨process.map env.bases.uuid, start.map Emitted.kind, rest.map Emitted.kind,
    opens_of_contents (fun packet hmem => hreads packet (List.mem_append_left _ hmem)) hstart,
    ?_, fun kind hkind => ?_⟩
  · rw [List.map_append, List.map_cons, hthread descriptor (by simp) hdescriptor]
  · obtain ⟨packet, hpacket, rfl⟩ := List.mem_map.1 hkind
    have hcontent : packet.content ∈ bodies.map Content.body := by
      rw [← hrest]
      exact List.mem_map_of_mem hpacket
    obtain ⟨body, -, hbody⟩ := List.mem_map.1 hcontent
    have hmem : packet ∈ start ++ descriptor :: rest :=
      List.mem_append_right _ (List.mem_cons_of_mem _ hpacket)
    exact ⟨_, (hreads packet hmem).body body hbody.symm, (kindOf_follows body).1⟩

theorem Headed.thread_reads {sequenceId threadTrack : Nat} {before : List Emitted}
    {packet : Emitted} (h : Headed env sequenceId threadTrack before packet)
    (hfinished : packet.Finished env) (hcontent : packet.content = .threadDescriptor) :
    packet.kind = some (.thread threadTrack) := by
  obtain ⟨answers, hbody⟩ := h.thread hcontent
  have hkind : packet.kind = readKind (Op.fields packet.written.body) := hfinished.enclosed.readKind
  rw [hkind, hbody, threadDescriptor_reads]

theorem sequenced_of_headed {sequenceId threadTrack : Nat} {packets : List Emitted}
    (h : Holds (Headed env sequenceId threadTrack) packets)
    (hfinished : ∀ packet ∈ packets, packet.Finished env)
    (horder : packets.map Emitted.content = [] ∨
      (∃ process, packets.map Emitted.content = opening process) ∨
        Complete (packets.map Emitted.content)) :
    Sequenced sequenceId threadTrack packets ∧
      (Complete (packets.map Emitted.content) → Starts threadTrack (packets.map Emitted.kind)) := by
  have hreads : ∀ packet ∈ packets, packet.Reads env := fun packet hmem =>
    (hfinished packet hmem).reads
  have hstarts : Complete (packets.map Emitted.content) →
      Starts threadTrack (packets.map Emitted.kind) := by
    refine starts_of_contents hreads fun packet hmem hcontent => ?_
    obtain ⟨before, after, hsplit⟩ := List.append_of_mem hmem
    exact (h before packet after hsplit).thread_reads (hfinished packet hmem) hcontent
  refine ⟨⟨?_, fun packet after hsplit => (h [] packet after hsplit).first_marks,
    fun before packet after hsplit => (h before packet after hsplit).later_marks⟩, hstarts⟩
  rcases horder with hnil | ⟨process, hopening⟩ | hcomplete
  · exact .inl (List.map_eq_nil_iff.1 hnil)
  · exact .inr (.inl ⟨_, opens_of_contents hreads hopening⟩)
  · exact .inr (.inr (hstarts hcomplete))

theorem filterMap_atMostOne {α β : Type} {f : α → Option β} {items : List α}
    (h : items.Pairwise fun item later => f item = none ∨ f later = none) :
    items.filterMap f = [] ∨ ∃ value, items.filterMap f = [value] := by
  induction h with
  | nil => exact .inl rfl
  | @cons item items hitem _ ih =>
      cases hvalue : f item with
      | none =>
          rw [List.filterMap_cons_none hvalue]
          exact ih
      | some value =>
          rw [List.filterMap_cons_some hvalue]
          refine .inr ⟨value, ?_⟩
          rw [List.filterMap_eq_nil_iff.2]
          exact fun later hlater => (hitem later hlater).resolve_left (by rw [hvalue]; simp)

theorem introductions_eq {packets : List Emitted}
    (hreads : ∀ packet ∈ packets, packet.Reads env) : introductions packets =
      (packets.filterMap fun packet => packet.content.introduces).map env.bases.uuid := by
  rw [introductions, List.map_filterMap]
  exact List.filterMap_congr fun packet hmem => (hreads packet hmem).introduces

/-- What is known of the starts of the sequences after every run. -/
structure Begun (env : Env) (state : State) (frames : Frames) : Prop where
  drawn : Drawn state frames
  preambles : Preambles state frames
  introduced : Introduced state frames
  headers : Headers env state
  roots : Roots state frames
  legible : Legible env state

theorem preamble_run {nextSequenceId : Nat} {labels : List (system env).Label}
    {config : (system env).Config}
    (hrun : System.run labels (System.idle (State.new nextSequenceId)) = some config) :
    ∃ frames, Begun env config.state frames ∧ System.Tracks (protocol env) Final config frames := by
  have hplaces := (owners_kept env).join ((fits_kept env).over And.left)
  have hdrawn := hplaces.join ((drawn_kept env).over fun h => ⟨h.1, h.2.1, h.2.2⟩)
  have hstarted := hdrawn.join ((preambles_kept env).over And.left)
  have hintroduced := hstarted.join ((introduced_kept env).over fun h =>
    ⟨⟨⟨h.1, h.2.1.1.1, h.2.1.1.2⟩, h.2.1.2⟩, h.2.2⟩)
  have hheaded := hintroduced.join ((headers_kept env).over fun h => ⟨h.1, h.2.1.2⟩)
  have hrooted := hheaded.join ((roots_kept env).over fun h =>
    ⟨⟨h.1, h.2.1.1.1.1.1, h.2.1.1.1.1.2⟩, h.2.1.1.1.2⟩)
  have hall := hrooted.join ((legible_kept env).over fun _ => trivial)
  obtain ⟨frames, ⟨-, ⟨⟨⟨⟨⟨-, hdrawn⟩, hpreambles⟩, hintroduced⟩, hheaders⟩, hroots⟩, hlegible⟩,
    htracks⟩ := known_run hall ⟨⟨⟨⟨⟨⟨⟨owners_new nextSequenceId, fits_new nextSequenceId⟩,
      drawn_new nextSequenceId⟩, preambles_new nextSequenceId⟩, introduced_new nextSequenceId⟩,
        headers_new env nextSequenceId⟩, roots_new nextSequenceId⟩,
          legible_new env nextSequenceId⟩ (System.obeys_true labels _) hrun
  exact ⟨frames, ⟨hdrawn, hpreambles, hintroduced, hheaders, hroots, hlegible⟩, htracks⟩

section Begun

variable {state : State} {frames : Frames} (h : Begun env state frames)

include h

theorem Begun.reads {packet : Emitted} (hmem : packet ∈ state.trace.packets) : packet.Reads env :=
  h.legible.reads hmem

theorem Begun.described {before after : List Emitted} {packet : Emitted}
    (hsplit : state.trace.packets = before ++ packet :: after) {uuid : Nat} {key : TrackKey}
    (hdescribed : Described before uuid key) : ∃ earlier ∈ before, ∃ name, earlier.kind =
      some (.spanTrack (env.bases.uuid uuid) name (env.bases.uuid key.parentUuid)) := by
  obtain ⟨earlier, hearlier, hdescribes⟩ := hdescribed
  have hmem : earlier ∈ state.trace.packets := by
    rw [hsplit]
    exact List.mem_append_left _ hearlier
  exact ⟨earlier, hearlier, _, (h.reads hmem).showsTracks.describes uuid key hdescribes⟩

theorem Begun.descends {process : Nat} (hprocess : state.shared.processTrack = some process) :
    Holds (Descends state.registry (env.bases.uuid process)) state.trace.packets := by
  intro before packet after hsplit
  have hmem : packet ∈ state.trace.packets := by
    rw [hsplit]
    exact List.mem_append_right _ List.mem_cons_self
  have hreads := h.reads hmem
  constructor
  · intro uuid name parentUuid hkind
    obtain ⟨used, hcounts, rfl⟩ := hreads.counterTrack hkind
    have hsame := h.introduced.counters packet hmem used hcounts
    rw [hprocess, Option.some.injEq] at hsame
    rw [hsame]
  · intro uuid name parentUuid hkind
    obtain ⟨used, key, hdescribes, -, rfl⟩ := hreads.spanTrack hkind
    rcases (h.drawn.rooted before packet after hsplit).1 used key hdescribes with
      hroot | ⟨parentKey, hdescribed, -⟩
    · rw [hprocess, Option.some.injEq] at hroot
      exact .inl (by rw [hroot])
    · obtain ⟨earlier, hearlier, parentName, hshown⟩ := h.described hsplit hdescribed
      exact .inr ⟨earlier, hearlier, parentName, _, hshown⟩
  · intro span type trackUuid hspan hroot hkind htype
    obtain ⟨used, hslice, rfl⟩ := hreads.slice hkind htype
    obtain ⟨key, hdescribed, hparent⟩ :=
      (h.roots.packets before packet after hsplit span used hspan hslice).root hroot
    rw [hprocess, Option.some.injEq] at hparent
    rw [hparent]
    exact h.described hsplit hdescribed

theorem Begun.descends_none (hprocess : state.shared.processTrack = none) :
    Holds (Descends state.registry 0) state.trace.packets := by
  intro before packet after hsplit
  have hmem : packet ∈ state.trace.packets := by
    rw [hsplit]
    exact List.mem_append_right _ List.mem_cons_self
  have hreads := h.reads hmem
  have hnone : ∀ earlier uuid key, earlier ⊆ state.trace.packets →
      ¬ Described earlier uuid key := by
    intro earlier uuid key hsub hdescribed
    obtain ⟨process, hroot, -⟩ := rooted_hangs h.drawn.rooted (hdescribed.mono hsub)
    rw [hprocess] at hroot
    cases hroot
  constructor
  · intro uuid name parentUuid hkind
    obtain ⟨used, hcounts, -⟩ := hreads.counterTrack hkind
    have hsame := h.introduced.counters packet hmem used hcounts
    rw [hprocess] at hsame
    cases hsame
  · intro uuid name parentUuid hkind
    obtain ⟨used, key, hdescribes, -, -⟩ := hreads.spanTrack hkind
    exact absurd ⟨packet, hmem, hdescribes⟩ (hnone _ used key fun _ => id)
  · intro span type trackUuid hspan hroot hkind htype
    obtain ⟨used, hslice, rfl⟩ := hreads.slice hkind htype
    obtain ⟨key, hdescribed, -⟩ :=
      (h.roots.packets before packet after hsplit span used hspan hslice).root hroot
    refine absurd hdescribed (hnone before used key ?_)
    rw [hsplit]
    exact List.subset_append_left _ _

/-- At most one process is described, the one that has a track. -/
theorem Begun.introductions : introductions state.trace.packets = [] ∨ ∃ process,
    state.shared.processTrack = some process ∧
      Layer.introductions state.trace.packets = [env.bases.uuid process] := by
  rw [introductions_eq fun packet hmem => h.reads hmem]
  rcases filterMap_atMostOne h.introduced.once with hnil | ⟨process, hone⟩
  · rw [hnil]
    exact .inl rfl
  · rw [hone]
    refine .inr ⟨process, ?_, rfl⟩
    have hmem : process ∈ state.trace.packets.filterMap fun packet =>
        packet.content.introduces := by
      rw [hone]
      exact List.mem_singleton_self process
    obtain ⟨packet, hpacket, hintroduces⟩ := List.mem_filterMap.1 hmem
    exact h.introduced.process packet hpacket process hintroduces

theorem Begun.introduced_idle (hidle : ∀ thread, frames thread = [])
    (hpackets : state.trace.packets ≠ []) : Layer.introductions state.trace.packets ≠ [] := by
  have hclaimed : state.shared.processDescEmitted = true := by
    by_contra hunclaimed
    rw [Bool.not_eq_true] at hunclaimed
    obtain ⟨packet, hpacket⟩ := List.exists_mem_of_ne_nil _ hpackets
    have hcomplete := ((h.preambles.started packet.thread).settled fun frame hmem => by
      rw [hidle packet.thread] at hmem
      cases hmem).resolve_left
        (List.ne_nil_of_mem (List.mem_map_of_mem (List.mem_filter.2 ⟨hpacket, by simp⟩)))
    obtain ⟨descriptor, hmem, hcontent⟩ := complete_threadDescriptor hcomplete
    rw [(h.introduced.unclaimed hunclaimed).1 descriptor hmem] at hcontent
    cases hcontent
  rcases h.introduced.claimed hclaimed with ⟨packet, hpacket, hsent⟩ | ⟨thread, frame, hframe, -⟩
  · obtain ⟨process, hcontent⟩ := introduces_write hsent
    rw [introductions_eq fun packet hmem => h.reads hmem]
    have hmem : process ∈ state.trace.packets.filterMap fun packet => packet.content.introduces :=
      List.mem_filterMap.2 ⟨packet, hpacket, by rw [hcontent]; rfl⟩
    exact List.ne_nil_of_mem (List.mem_map_of_mem hmem)
  · rw [hidle thread] at hframe
    cases hframe

end Begun

/-- After every run each sequence is one that its reader can follow, and it has all its
descriptors when the callbacks of its thread have returned. At most one process is described
then, one if nobody is at work and there is anything, and it is the one that the counters
and the tracks of the root spans hang off. -/
theorem sequences_start {nextSequenceId : Nat} {labels : List (system env).Label}
    {config : (system env).Config}
    (hrun : System.run labels (System.idle (State.new nextSequenceId)) = some config) :
    (∀ thread, ∃ sequenceId threadTrack,
      Sequenced sequenceId threadTrack (packetsOf config.state.trace.packets thread) ∧
        (config.frames thread = [] → packetsOf config.state.trace.packets thread = [] ∨
          Starts threadTrack ((packetsOf config.state.trace.packets thread).map Emitted.kind))) ∧
    ∃ process, Holds (Descends config.state.registry process) config.state.trace.packets ∧
      (introductions config.state.trace.packets = [] ∨
        introductions config.state.trace.packets = [process]) ∧
      ((∀ thread, config.frames thread = []) → config.state.trace.packets ≠ [] →
        introductions config.state.trace.packets = [process]) := by
  obtain ⟨frames, hbegun, htracks⟩ := preamble_run hrun
  have hreturned : ∀ thread, config.frames thread = [] → frames thread = [] := by
    intro thread hidle
    have hthread := htracks thread
    rw [hidle] at hthread
    exact List.forall₂_nil_left_iff.1 hthread
  refine ⟨fun thread => ?_, ?_⟩
  · obtain ⟨sequenceId, track, -, hheaded⟩ := hbegun.headers thread
    obtain ⟨hsequenced, hstarts⟩ := sequenced_of_headed hheaded
      (fun packet hmem => hbegun.legible.finished packet (List.mem_filter.1 hmem).1)
      (hbegun.preambles.started thread).order
    refine ⟨sequenceId, env.bases.uuid track, hsequenced, fun hidle => ?_⟩
    have hsettled := (hbegun.preambles.started thread).settled fun frame hmem => by
      rw [hreturned thread hidle] at hmem
      cases hmem
    exact hsettled.imp List.map_eq_nil_iff.1 hstarts
  · have hsome : (∀ thread, config.frames thread = []) → config.state.trace.packets ≠ [] →
        introductions config.state.trace.packets ≠ [] := fun hidle =>
      hbegun.introduced_idle fun thread => hreturned thread (hidle thread)
    cases hprocess : config.state.shared.processTrack with
    | none =>
        have hnil := hbegun.introductions.resolve_right fun ⟨process, htrack, _⟩ => by
          rw [hprocess] at htrack
          cases htrack
        exact ⟨0, hbegun.descends_none hprocess, .inl hnil,
          fun hidle hpackets => absurd hnil (hsome hidle hpackets)⟩
    | some process =>
        have hone : introductions config.state.trace.packets = [] ∨
            introductions config.state.trace.packets = [env.bases.uuid process] :=
          hbegun.introductions.imp_right fun ⟨known, htrack, hknown⟩ => by
            rw [hprocess, Option.some.injEq] at htrack
            rw [hknown, htrack]
        exact ⟨env.bases.uuid process, hbegun.descends hprocess, hone,
          fun hidle hpackets => hone.resolve_left (hsome hidle hpackets)⟩

/-- Two threads create a span each. The second one starts its sequence while the first one
has claimed the descriptor of the process and not sent it. -/
def together : Option (system flowEnv).Config :=
  System.run
    (.call 1 (.newSpan 1 sampleMetadata none) :: List.replicate 22 (.act 1 sampleChoice) ++
      .call 2 (.newSpan 2 sampleMetadata none) :: List.replicate 31 (.act 2 sampleChoice) ++
        .ret 2 :: List.replicate 12 (.act 1 sampleChoice) ++ [.ret 1])
    (System.idle (State.new 65536))

/-- The tracks that defaults name. -/
def defaultTracks (defaults : List (List Field)) : List Nat :=
  (defaults.flatMap (Wire.messages TracePacketDefaults.trackEventDefaults)).flatMap
    (Wire.varints TrackEventDefaults.trackUuid)

/-- The sequence id and the default track in the first packet of a sequence. -/
def firstMarks (packets : List Emitted) : Option (List Nat × List Nat) :=
  packets.head?.map fun packet =>
    (Wire.varints TracePacket.trustedPacketSequenceId (Op.fields packet.written.calls),
      defaultTracks (Wire.messages TracePacket.tracePacketDefaults
        (Op.fields packet.written.calls)))

/-- What is asked of the run. -/
def StartTogether (config : (system flowEnv).Config) : Prop :=
  ((config.frames 1).isEmpty = true ∧ (config.frames 2).isEmpty = true) ∧
    (firstMarks (packetsOf config.state.trace.packets 1) = some ([65536], [6]) ∧
      firstMarks (packetsOf config.state.trace.packets 2) = some ([65537], [8])) ∧
    ((packetsOf config.state.trace.packets 1).map Emitted.kind =
      [some (.snapshot [64, 6, 1]), some (.process 5), some (.thread 6),
        some (.spanTrack 7 [112, 111, 108, 108] 5), some (.event 1 (some 7))] ∧
    (packetsOf config.state.trace.packets 2).map Emitted.kind =
      [some (.snapshot [64, 6, 1]), some (.thread 8),
        some (.spanTrack 9 [112, 111, 108, 108] 5), some (.event 1 (some 9))]) ∧
    introductions config.state.trace.packets = [5] ∧ config.state.registry.parents 1 = none

instance (config : (system flowEnv).Config) : Decidable (StartTogether config) := by
  unfold StartTogether
  infer_instance

theorem together_starts :
    (together.map fun config => decide (StartTogether config)) = some true := by decide +kernel

theorem Sequenced.marks {sequenceId threadTrack first track : Nat} {packets : List Emitted}
    (h : Sequenced sequenceId threadTrack packets)
    (hfirst : firstMarks packets = some ([first], [track])) :
    sequenceId = first ∧ threadTrack = track := by
  obtain ⟨packet, hhead, hmarks⟩ := Option.map_eq_some_iff.1 hfirst
  obtain ⟨after, rfl⟩ := List.head?_eq_some_iff.1 hhead
  obtain ⟨hsequence, -, -, hdefaults⟩ := h.first packet after rfl
  rw [hsequence, hdefaults] at hmarks
  change ([sequenceId], [threadTrack]) = ([first], [track]) at hmarks
  simpa using hmarks

theorem sequences_start_together : ∃ config, together = some config ∧
    ((packetsOf config.state.trace.packets 1).map Emitted.kind =
      [some (.snapshot [64, 6, 1]), some (.process 5), some (.thread 6),
        some (.spanTrack 7 [112, 111, 108, 108] 5), some (.event 1 (some 7))] ∧
      Sequenced 65536 6 (packetsOf config.state.trace.packets 1) ∧
      Starts 6 ((packetsOf config.state.trace.packets 1).map Emitted.kind)) ∧
    ((packetsOf config.state.trace.packets 2).map Emitted.kind =
      [some (.snapshot [64, 6, 1]), some (.thread 8),
        some (.spanTrack 9 [112, 111, 108, 108] 5), some (.event 1 (some 9))] ∧
      Sequenced 65537 8 (packetsOf config.state.trace.packets 2) ∧
      Starts 8 ((packetsOf config.state.trace.packets 2).map Emitted.kind)) ∧
    introductions config.state.trace.packets = [5] ∧ config.state.registry.parents 1 = none ∧
      Holds (Descends config.state.registry 5) config.state.trace.packets := by
  obtain ⟨config, hrun, hstarts⟩ := Option.map_eq_some_iff.1 together_starts
  rw [decide_eq_true_eq] at hstarts
  obtain ⟨⟨hidle, hidle'⟩, ⟨hmarks, hmarks'⟩, ⟨hkinds, hkinds'⟩, hintroduced, hroot⟩ := hstarts
  obtain ⟨hsequences, process, hdescends, hone, -⟩ := sequences_start hrun
  have hthread : ∀ thread sequenceId threadTrack, (config.frames thread).isEmpty = true →
      firstMarks (packetsOf config.state.trace.packets thread) =
        some ([sequenceId], [threadTrack]) →
      Sequenced sequenceId threadTrack (packetsOf config.state.trace.packets thread) ∧
        Starts threadTrack ((packetsOf config.state.trace.packets thread).map Emitted.kind) := by
    intro thread sequenceId threadTrack hnobody hfirst
    obtain ⟨known, track, hsequenced, hsettled⟩ := hsequences thread
    obtain ⟨rfl, rfl⟩ := hsequenced.marks hfirst
    refine ⟨hsequenced, (hsettled (List.isEmpty_iff.1 hnobody)).resolve_left fun hnil => ?_⟩
    rw [hnil] at hfirst
    cases hfirst
  have hprocess : process = 5 := by
    rcases hone with hnil | hsome
    · rw [hintroduced] at hnil
      cases hnil
    · rw [hintroduced] at hsome
      exact (List.singleton_inj.1 hsome).symm
  subst hprocess
  exact ⟨config, hrun, ⟨hkinds, hthread 1 65536 6 hidle hmarks⟩,
    ⟨hkinds', hthread 2 65537 8 hidle' hmarks'⟩, hintroduced, hroot, hdescends⟩

end Runs

end TracingPerfetto.Layer
