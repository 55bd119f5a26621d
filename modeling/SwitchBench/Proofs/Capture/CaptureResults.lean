import SwitchBench.Proofs.Capture.Latches
import SwitchBench.Proofs.Runs

/-!
# One truthful result for each capture

A history of the captures is the list of their events, newest first. `uncollected?` reads off it the
capture that nobody has collected, with everything that happened since it was armed, and
`lastCollected?` the one collected last. `InOrder` says that a capture is armed only when there is
none, that it takes edges and ends only while it runs, that its end is announced once, and that what
is collected then is the truth about it (`OpenCapture.Truthful`): nothing if an abort ended it, and
otherwise the readings of the edges that it took itself.

Results: `Knows.act` (one action keeps the history in order, and whoever has the permit knows where
its capture stands), `one_capture_one_result` (the permit is conserved, no semaphore is given a unit
at its limit, the history is in order, a call that collects a capture answers for that capture, and
the timer is at rest whenever no capture runs).
-/

namespace SwitchBench

namespace Recorder

open Timer

/-- Something that happened to the captures of a recorder. -/
inductive CaptureEvent where
  | armed (s : CaptureSetup) (d : Directions)
  /-- An edge on a channel was taken, at a count. -/
  | taken (c : Channel) (ticks : Nat)
  /-- The handler found the window at its end. -/
  | windowEnded
  /-- An abort found the capture armed or running, and ended it. -/
  | cut
  /-- The end was announced: `done` was given a unit. -/
  | announced
  /-- A client read the capture out; nothing if it was aborted. -/
  | collected (readings : Option (List Reading))
  deriving DecidableEq, Repr

/-- Does the event end the capture that runs? -/
def CaptureEvent.isEnd : CaptureEvent → Bool
  | windowEnded | cut => true
  | _ => false

/-- A capture that was armed, and what happened since, newest first. -/
structure OpenCapture where
  setup : CaptureSetup
  directions : Directions
  since : List CaptureEvent
  deriving DecidableEq, Repr

/-- The counts at which a channel took edges, oldest first. -/
def takenOn (c : Channel) : List CaptureEvent → List Nat
  | [] => []
  | .taken c' ticks :: past =>
    if c' = c then takenOn c past ++ [ticks] else takenOn c past
  | _ :: past => takenOn c past

/-- What a call that collected a capture returns, and what it leaves in its buffer. -/
def answer (buffer : List Reading) : Option (List Reading) → CaptureOutcome × List Reading
  | some readings => (.ok, fill buffer.length readings)
  | none => (.aborted, buffer)

namespace OpenCapture

/-- Adds what happened next. -/
def add (e : CaptureEvent) (m : OpenCapture) : OpenCapture := { m with since := e :: m.since }

/-- How the capture ended; more than one end would be one too many. -/
def ends (m : OpenCapture) : List CaptureEvent := m.since.filter (·.isEnd)

/-- The readings of the edges that the capture took, in channel order. -/
def readings (m : OpenCapture) : List Reading :=
  (Channel.all.filter (maskOf m.setup m.directions).get).map fun c =>
    readingOfHits m.setup.timeoutTicks (takenOn c m.since)

/-- The capture is armed or running. -/
def Runs (m : OpenCapture) : Prop := m.ends = [] ∧ m.since.count .announced = 0

/-- The capture has ended, and nobody has said so yet. -/
def Over (m : OpenCapture) : Prop := m.ends.length = 1 ∧ m.since.count .announced = 0

/-- The capture has ended, and it was announced. -/
def Announced (m : OpenCapture) : Prop := m.ends.length = 1 ∧ m.since.count .announced = 1

/-- Is this what came of the capture? -/
def Truthful (m : OpenCapture) : Option (List Reading) → Prop
  | none => m.ends = [.cut]
  | some readings => m.ends = [.windowEnded] ∧ readings = m.readings

end OpenCapture

/-- The capture that has not been collected, if there is one. -/
def uncollected? : List CaptureEvent → Option OpenCapture
  | [] => none
  | .armed s d :: _ => some ⟨s, d, []⟩
  | .collected _ :: _ => none
  | e :: past => (uncollected? past).map (·.add e)

/-- The capture that was collected last, if there is one. -/
def lastCollected? : List CaptureEvent → Option OpenCapture
  | [] => none
  | .collected _ :: past => uncollected? past
  | _ :: past => lastCollected? past

/-- May an event come after others? -/
def Allowed (past : List CaptureEvent) : CaptureEvent → Prop
  | .armed _ _ => uncollected? past = none
  | .taken _ _ | .windowEnded | .cut => ∃ m, uncollected? past = some m ∧ m.Runs
  | .announced => ∃ m, uncollected? past = some m ∧ m.Over
  | .collected l => ∃ m, uncollected? past = some m ∧ m.Announced ∧ m.Truthful l

/-- Is every event of a history allowed where it came? -/
def InOrder : List CaptureEvent → Prop
  | [] => True
  | e :: past => InOrder past ∧ Allowed past e

/-! ## What a capture comes to -/

namespace OpenCapture

variable {m : OpenCapture}

theorem Runs.take (h : m.Runs) (c : Channel) (ticks : Nat) : (m.add (.taken c ticks)).Runs := h

theorem Runs.over (h : m.Runs) {e : CaptureEvent} (he : e.isEnd = true) :
    (m.add e).Over ∧ (m.add e).ends = [e] := by
  obtain ⟨hends, hann⟩ := h
  have hadd : (m.add e).ends = [e] := by
    unfold ends add at *
    rw [List.filter_cons_of_pos he, hends]
  refine ⟨⟨by rw [hadd]; rfl, ?_⟩, hadd⟩
  unfold add
  rw [List.count_cons, hann]
  cases e <;> first | rfl | cases he

theorem Over.announce (h : m.Over) : (m.add .announced).Announced := by
  refine ⟨h.1, ?_⟩
  unfold add
  rw [List.count_cons_self, h.2]

/-- A capture ends by an abort or by its window. -/
theorem ends_eq_of_length (h : m.ends.length = 1) : m.ends = [.cut] ∨ m.ends = [.windowEnded] := by
  obtain ⟨e, he⟩ := List.length_eq_one_iff.mp h
  have hmem : e ∈ m.ends := by
    rw [he]
    exact List.mem_singleton_self e
  have hend := (List.mem_filter.mp hmem).2
  cases e <;> first | cases hend; done | skip
  · exact .inr he
  · exact .inl he

/-- What the recorder has of a capture that is not collected. -/
structure KeptBy (m : OpenCapture) (r : Recorder) : Prop where
  aborted : r.aborted = true ↔ .cut ∈ m.ends
  enabled : r.timer.enabled = maskOf m.setup m.directions
  timeout : r.timeoutTicks = m.setup.timeoutTicks
  latches : r.timer.Latches (takenOn · m.since)

/-- What is read out of a capture that has ended is the truth about it. -/
theorem KeptBy.truthful {r : Recorder} (h : m.KeptBy r) (hends : m.ends.length = 1) :
    m.Truthful r.collect.2 := by
  rcases ends_eq_of_length hends with hcut | hwin
  · have ha : r.aborted = true := h.aborted.mpr (by rw [hcut]; exact List.mem_singleton_self _)
    rw [collect, if_pos ha]
    exact hcut
  · have ha : r.aborted = false := by
      refine eq_false_of_ne_true fun ha => ?_
      have := h.aborted.mp ha
      rw [hwin] at this
      simp at this
    rw [collect_of_latches ha h.latches, h.enabled, h.timeout]
    exact ⟨hwin, rfl⟩

/-- Nothing but an edge that is taken and the end of the capture changes what is kept of it. -/
theorem KeptBy.of_sameLatches {r r' : Recorder} (h : m.KeptBy r) (ha : r'.aborted = r.aborted)
    (ht : r'.timeoutTicks = r.timeoutTicks) (hl : r'.timer.SameLatches r.timer) : m.KeptBy r' :=
  ⟨by rw [ha]; exact h.aborted, hl.enabled.trans h.enabled, ht.trans h.timeout,
    h.latches.of_sameLatches hl⟩

/-- An end or its announcement changes nothing but whether the capture was aborted. -/
theorem KeptBy.add {r r' : Recorder} (h : m.KeptBy r) {e : CaptureEvent}
    (he : e.isEnd = true ∨ e = .announced) (ha : r'.aborted = true ↔ .cut ∈ (m.add e).ends)
    (ht : r'.timeoutTicks = r.timeoutTicks) (hl : r'.timer.SameLatches r.timer) :
    (m.add e).KeptBy r' := by
  have hsince : (takenOn · (m.add e).since) = (takenOn · m.since) := by
    funext c
    cases e <;> first | rfl | simp [CaptureEvent.isEnd] at he
  refine ⟨ha, hl.enabled.trans h.enabled, ht.trans h.timeout, ?_⟩
  rw [hsince]
  exact h.latches.of_sameLatches hl

end OpenCapture

namespace Crowd

/-- What an action means for the captures. -/
def event? (c : Crowd) : Action → Option CaptureEvent
  | .edge ch e =>
    if (c.recorder.timer.edge ch e c.now).2 then
      some (.taken ch (c.recorder.timer.counterAt c.now))
    else none
  | .proceed i =>
    match c.calls[i]? with
    | some (.arming s d) => some (.armed s d)
    | some .reading => some (.collected c.recorder.collect.2)
    | some .cutting => if (c.recorder.cut c.now).2 then some .cut else none
    | some .handling => if (c.recorder.service c.now).2 then some .windowEnded else none
    | some .announcing => some .announced
    | _ => none
  | _ => none

/-- The semaphores that an action gives a unit to, as they stand before it. -/
def receivers (c : Crowd) : Action → List Semaphore
  | .proceed i =>
    match c.calls[i]? with
    | some .announcing => [c.recorder.done]
    | some (.givingPermit _) => [c.recorder.available]
    | _ => []
  | _ => []

/-- What a call returns that collects a capture, or gives up on it, if this is its last action, and
what it leaves in its buffer. -/
def returns? (c : Crowd) (buffer : List Reading) :
    Action → Option (CaptureOutcome × List Reading)
  | .proceed i =>
    match c.calls[i]? with
    | some (.givingPermit l) => some (answer buffer l)
    | _ => none
  | .giveUp i =>
    match c.calls[i]? with
    | some (.takingEnd _) => some (.timedOut, buffer)
    | _ => none
  | _ => none

/-- What happened along a trace, newest first. -/
def events (t : Trace) : List CaptureEvent := t.filterMap fun e => e.1.event? e.2

theorem events_cons (c : Crowd) (a : Action) (t : Trace) :
    events ((c, a) :: t) = (c.event? a).toList ++ events t := by
  unfold events
  rw [List.filterMap_cons]
  cases h : c.event? a <;> simp

end Crowd

end Recorder

/-- What a call that holds the permit knows of the history. -/
def CaptureCall.Knows (past : List Recorder.CaptureEvent) : CaptureCall → Prop
  | arming _ _ => Recorder.uncollected? past = none
  | announcing => ∃ m, Recorder.uncollected? past = some m ∧ m.Over
  | reading => ∃ m, Recorder.uncollected? past = some m ∧ m.Announced
  | givingPermit l =>
    Recorder.uncollected? past = none ∧ ∃ m, Recorder.lastCollected? past = some m ∧ m.Truthful l
  | _ => True

theorem CaptureCall.knows_of_not_holds {k : CaptureCall} (h : k.holds = false)
    (past : List Recorder.CaptureEvent) : k.Knows past := by
  cases k with
  | takingPermit _ _ | takingEnd _ | cutting | handling => trivial
  | arming _ _ | reading | givingPermit _ | announcing => cases h

namespace Recorder

namespace Crowd

/-- Whoever has the permit knows where the capture stands, and the recorder keeps it. -/
structure Knows (past : List CaptureEvent) (c : Crowd) : Prop where
  free : c.recorder.available.count = 1 → uncollected? past = none
  armed : c.recorder.timer.armed = true → ∃ m, uncollected? past = some m ∧ m.Runs
  announced : c.recorder.done.count = 1 → ∃ m, uncollected? past = some m ∧ m.Announced
  calls : ∀ k ∈ c.calls, k.Knows past
  kept : ∀ m, uncollected? past = some m → m.KeptBy c.recorder

variable {past past' : List CaptureEvent} {c c' : Crowd} {a : Action}

/-- With an armed timer, the permit is nowhere else. -/
theorem Sound.alone_of_armed (h : Sound c) (ha : c.recorder.timer.armed = true) :
    c.recorder.available.count = 0 ∧ c.calls.countP CaptureCall.holds = 0 ∧
      c.recorder.done.count = 0 := by
  have := h.permit
  rw [permits, ha, Bool.toNat_true] at this
  omega

/-- With a unit of either semaphore, the permit is nowhere else. -/
theorem Sound.alone_of_count (h : Sound c)
    (hp : c.recorder.available.count + c.recorder.done.count = 1) :
    c.calls.countP CaptureCall.holds = 0 ∧ c.recorder.timer.armed = false := by
  have := h.permit
  unfold permits at this
  cases ha : c.recorder.timer.armed with
  | false => exact ⟨by omega, rfl⟩
  | true =>
    rw [ha, Bool.toNat_true] at this
    omega

/-- The registers change, but neither what is latched nor whether the timer is armed. -/
theorem Knows.retime (h : Knows past c) {t : Timer.Registers}
    (ha : t.armed = c.recorder.timer.armed) (hl : t.SameLatches c.recorder.timer) (now : Nat) :
    Knows past { c with recorder.timer := t, now := now } :=
  ⟨h.free, fun h0 => h.armed (ha.symm.trans h0), h.announced, h.calls,
    fun m hm => (h.kept m hm).of_sameLatches rfl rfl hl⟩

/-- The permit goes from a call to somewhere else, or the other way, and nobody else has it. -/
theorem Knows.pass {i : Nat} {k : CaptureCall} {next : Option CaptureCall}
    (hi : c.calls[i]? = some k) (hone : c.calls.countP CaptureCall.holds = k.holds.toNat)
    {r : Recorder} (hfree : r.available.count = 1 → uncollected? past' = none)
    (harmed : r.timer.armed = true → ∃ m, uncollected? past' = some m ∧ m.Runs)
    (hann : r.done.count = 1 → ∃ m, uncollected? past' = some m ∧ m.Announced)
    (hnext : ∀ k' ∈ next, k'.Knows past')
    (hkept : ∀ m, uncollected? past' = some m → m.KeptBy r) :
    Knows past' { c with recorder := r, calls := putAt c.calls i next } := by
  refine ⟨hfree, harmed, hann, fun k' hk' => ?_, hkept⟩
  rcases mem_putAt_of_alone hi hone hk' with hk' | hk'
  · exact hnext k' hk'
  · exact CaptureCall.knows_of_not_holds hk' _

/-- A call that does not hold the permit goes on or leaves, and the recorder stays as it is. -/
theorem Knows.stay (h : Knows past c) {i : Nat} {next : Option CaptureCall}
    (hnext : ∀ k ∈ next, k.Knows past) : Knows past { c with calls := putAt c.calls i next } := by
  refine ⟨h.free, h.armed, h.announced, fun k hk => ?_, h.kept⟩
  rcases mem_putAt hk with hk | hk
  · exact h.calls k hk
  · exact hnext k hk

/-- Whoever ends the capture that runs knows that it is over. -/
theorem Knows.close (h : Knows past c) (hs : Sound c) {i : Nat} {k : CaptureCall}
    (hi : c.calls[i]? = some k) (hk : k.holds = false) (ha : c.recorder.timer.armed = true)
    {e : CaptureEvent} (he : e.isEnd = true) (wasCut : Bool) (hcut : wasCut = true ↔ e = .cut)
    (hu : uncollected? (e :: past) = (uncollected? past).map (·.add e)) :
    (∃ m, uncollected? past = some m ∧ m.Runs) ∧
      Knows (e :: past) { c with
        recorder := { c.recorder with timer := quiesce c.recorder.timer c.now, aborted := wasCut }
        calls := putAt c.calls i (some .announcing) } := by
  obtain ⟨m, hm, hruns⟩ := h.armed ha
  obtain ⟨h1, h2, h3⟩ := hs.alone_of_armed ha
  obtain ⟨hover, hends⟩ := hruns.over he
  have hu' : uncollected? (e :: past) = some (m.add e) := by rw [hu, hm]; rfl
  refine ⟨⟨m, hm, hruns⟩, Knows.pass hi (by rw [h2, hk]; rfl) (fun h0 => ?_)
    (fun h0 => (Bool.false_ne_true h0).elim) (fun h0 => ?_) (fun k hk => ?_) fun m' hm' => ?_⟩
  · simp only [h1] at h0
    cases h0
  · simp only [h3] at h0
    cases h0
  · cases hk
    exact ⟨_, hu', hover⟩
  · rw [hu'] at hm'
    cases hm'
    refine (h.kept m hm).add (.inl he) ?_ rfl (sameLatches_quiesce _ _)
    rw [hends, List.mem_singleton, hcut, eq_comm]

/-- What an action keeps: its event is allowed, and whoever has the permit then knows. -/
def Keeps (past : List CaptureEvent) (c : Crowd) (a : Action) (c' : Crowd) : Prop :=
  (∀ e, c.event? a = some e → Allowed past e) ∧ Knows ((c.event? a).toList ++ past) c'

/-- An action that is no event. -/
theorem Keeps.of_none (he : c.event? a = none) (h : Knows past c') : Keeps past c a c' := by
  refine ⟨fun e h0 => ?_, ?_⟩
  · rw [he] at h0
    cases h0
  · rwa [he]

/-- An action that is an event. -/
theorem Keeps.of_some (e : CaptureEvent) (he : c.event? a = some e) (ha : Allowed past e)
    (h : Knows (e :: past) c') : Keeps past c a c' := by
  refine ⟨fun e' h0 => ?_, ?_⟩
  · rw [he] at h0
    cases h0
    exact ha
  · rwa [he]

theorem Knows.proceed (h : Knows past c) (hs : Sound c) {i : Nat} {k : CaptureCall} {r : Recorder}
    {next : Option CaptureCall} (hi : c.calls[i]? = some k)
    (hk : k.step? c.now c.recorder = some (r, next)) :
    Keeps past c (.proceed i) { c with recorder := r, calls := putAt c.calls i next } := by
  have hknows := h.calls k (List.mem_of_getElem? hi)
  cases k with
  | takingPermit s d =>
    simp only [CaptureCall.step?, Recorder.takePermit?, Option.map_map,
      Option.map_eq_some_iff] at hk
    obtain ⟨p, hp, he⟩ := hk
    cases he
    have hcount := Semaphore.count_of_take? hp
    have hpermit := hs.permit
    unfold permits at hpermit
    obtain ⟨h1, h2⟩ := hs.alone_of_count (by omega)
    have hnone := h.free (by omega)
    refine .of_none (by simp only [event?, hi]) (Knows.pass hi (by rw [h1]; rfl) (fun _ => hnone)
      (fun h0 => ?_) (fun h0 => ?_) (fun k hk => ?_) fun m hm => ?_)
    · exact absurd (h2.symm.trans h0) (by simp)
    · simp only at h0
      omega
    · cases hk
      exact hnone
    · rw [hnone] at hm
      cases hm
  | takingEnd p =>
    simp only [CaptureCall.step?, Recorder.takeDone?, Option.map_map, Option.map_eq_some_iff] at hk
    obtain ⟨p, hp, he⟩ := hk
    cases he
    have hcount := Semaphore.count_of_take? hp
    have hpermit := hs.permit
    unfold permits at hpermit
    obtain ⟨h1, h2⟩ := hs.alone_of_count (by omega)
    refine .of_none (by simp only [event?, hi]) (Knows.pass hi (by rw [h1]; rfl) h.free
      h.armed (fun h0 => ?_) (fun k hk => ?_) fun m hm => ?_)
    · simp only at h0
      omega
    · cases hk
      exact h.announced (by omega)
    · exact (h.kept m hm).of_sameLatches rfl rfl (.refl _)
  | arming s d =>
    cases hk
    obtain ⟨h1, h2, h3, h4⟩ := hs.only hi rfl
    have hu : uncollected? (.armed s d :: past) = some ⟨s, d, []⟩ := rfl
    refine .of_some (.armed s d) (by simp only [event?, hi]) hknows (Knows.pass hi h2 (fun h0 => ?_)
      (fun _ => ⟨_, hu, rfl, rfl⟩) (fun h0 => ?_)
      (forall_mem_of_eq_none rfl) fun m hm => ?_)
    · exact absurd (h1.symm.trans h0) (by simp)
    · exact absurd (h4.symm.trans h0) (by simp)
    · rw [hu] at hm
      cases hm
      obtain ⟨hon, hlatches⟩ := latches_arm c.recorder s d c.now
      exact ⟨iff_of_false Bool.false_ne_true List.not_mem_nil, hon, rfl, hlatches⟩
  | reading =>
    cases hk
    obtain ⟨h1, h2, h3, h4⟩ := hs.only hi rfl
    obtain ⟨m, hm, hann⟩ := hknows
    have htrue := (h.kept m hm).truthful hann.1
    obtain ⟨f, hf⟩ := fst_collect c.recorder
    rw [hf]
    refine .of_some (.collected c.recorder.collect.2) (by simp only [event?, hi])
      ⟨m, hm, hann, htrue⟩ (Knows.pass hi h2 (fun _ => rfl) (fun h0 => ?_) (fun h0 => ?_)
        (fun k hk => ?_) fun m hm => ?_)
    · exact absurd (h3.symm.trans h0) (by simp)
    · exact absurd (h4.symm.trans h0) (by simp)
    · cases hk
      exact ⟨rfl, m, hm, htrue⟩
    · cases hm
  | givingPermit l =>
    cases hk
    obtain ⟨h1, h2, h3, h4⟩ := hs.only hi rfl
    refine .of_none (by simp only [event?, hi]) (Knows.pass hi h2 (fun _ => hknows.1)
      (fun h0 => ?_) (fun h0 => ?_)
      (forall_mem_of_eq_none rfl) fun m hm => ?_)
    · exact absurd (h3.symm.trans h0) (by simp)
    · exact absurd (h4.symm.trans h0) (by simp)
    · rw [hknows.1] at hm
      cases hm
  | announcing =>
    cases hk
    obtain ⟨h1, h2, h3, h4⟩ := hs.only hi rfl
    obtain ⟨m, hm, hover⟩ := hknows
    have hu : uncollected? (.announced :: past) = some (m.add .announced) := by
      show (uncollected? past).map _ = _
      rw [hm]
      rfl
    refine .of_some .announced (by simp only [event?, hi]) ⟨m, hm, hover⟩ (Knows.pass hi h2
      (fun h0 => ?_) (fun h0 => ?_) (fun _ => ⟨_, hu, hover.announce⟩) (forall_mem_of_eq_none rfl)
      fun m' hm' => ?_)
    · exact absurd (h1.symm.trans h0) (by simp)
    · exact absurd (h3.symm.trans h0) (by simp)
    · rw [hu] at hm'
      cases hm'
      exact (h.kept m hm).add (.inr rfl) (h.kept m hm).aborted rfl (.refl _)
  | cutting =>
    cases hk
    cases ha : c.recorder.timer.armed with
    | true =>
      obtain ⟨hruns, hk⟩ := h.close hs hi rfl ha (e := .cut) rfl true (by simp) rfl
      simp only [Recorder.cut, ha, if_true]
      exact .of_some .cut (by simp only [event?, hi, Recorder.cut, ha, if_true]) hruns hk
    | false =>
      have he : c.event? (.proceed i) = none := by
        simp only [event?, hi, Recorder.cut, ha, Bool.false_eq_true, if_false]
      simp only [Recorder.cut, ha, Bool.false_eq_true, if_false]
      exact .of_none he (h.stay (forall_mem_of_eq_none rfl))
  | handling =>
    cases hk
    have hl := sameLatches_service c.recorder c.now
    rcases service_cases hs.rests c.now with ⟨t, ha, -, he⟩ | ⟨ha, hab, he⟩
    · rw [he] at hl ⊢
      exact .of_none (by simp only [event?, hi, he, Bool.false_eq_true, if_false])
        ((h.retime ha hl c.now).stay (forall_mem_of_eq_none rfl))
    · obtain ⟨hruns, hk⟩ := h.close hs hi rfl ha (e := .windowEnded) rfl
        c.recorder.aborted (by simp [hab]) rfl
      rw [he]
      exact .of_some .windowEnded (by simp only [event?, hi, he, if_true]) hruns hk

/-- An edge is taken only while a capture runs, and then it is kept. -/
theorem Knows.edge (h : Knows past c) (hs : Sound c) (ch : Channel) (e : Edge) :
    Keeps past c (.edge ch e)
      { c with recorder.timer := (c.recorder.timer.edge ch e c.now).1 } := by
  have hmissed (he : c.recorder.timer.edge ch e c.now = (c.recorder.timer, false)) :
      Keeps past c (.edge ch e)
        { c with recorder.timer := (c.recorder.timer.edge ch e c.now).1 } := by
    rw [he]
    exact .of_none (by simp only [event?, he, Bool.false_eq_true, if_false]) h
  cases ha : c.recorder.timer.armed with
  | false => exact hmissed (hs.rests.edge_eq ha ch e c.now)
  | true =>
    obtain ⟨m, hm, hruns⟩ := h.armed ha
    obtain ⟨h1, h2, h3⟩ := hs.alone_of_armed ha
    have hkept := h.kept m hm
    rcases hkept.latches.edge ch e c.now with he | ⟨htaken, hlatches⟩
    · exact hmissed he
    have hu : uncollected? (.taken ch (c.recorder.timer.counterAt c.now) :: past)
        = some (m.add (.taken ch (c.recorder.timer.counterAt c.now))) := by
      show (uncollected? past).map _ = _
      rw [hm]
      rfl
    refine .of_some (.taken ch (c.recorder.timer.counterAt c.now))
      (by simp only [event?, htaken, if_true]) ⟨m, hm, hruns⟩
      ⟨fun h0 => ?_, fun _ => ⟨_, hu, hruns.take _ _⟩, fun h0 => ?_, fun k hk => ?_,
        fun m' hm' => ?_⟩
    · exact absurd (h1.symm.trans h0) (by simp)
    · exact absurd (h3.symm.trans h0) (by simp)
    · exact CaptureCall.knows_of_not_holds (eq_zero_of_mem_countP h2 hk) _
    · rw [hu] at hm'
      cases hm'
      exact ⟨hkept.aborted, (Timer.Registers.enabled_edge _ _ _ _).trans hkept.enabled,
        hkept.timeout, hlatches⟩

/-- **One action of anybody keeps the history in order, and whoever has the permit then knows where
its capture stands.** -/
theorem Knows.act (h : Knows past c) (hs : Sound c) (ha : c.act? a = some c') :
    Keeps past c a c' := by
  cases a with
  | trigger =>
    cases ha
    exact .of_none rfl (h.retime (hs.rests.trigger _).1 (Timer.Registers.sameLatches_trigger _ _) _)
  | edge ch e =>
    cases ha
    exact h.edge hs ch e
  | expire =>
    obtain ⟨due, hd, -, rfl⟩ := expire_of_act ha
    exact .of_none rfl (h.retime (hs.rests.expire hd).1
      (Timer.Registers.sameLatches_expire _ _) _)
  | wait us =>
    cases ha
    exact .of_none rfl (h.retime rfl (.refl _) _)
  | enter k =>
    obtain ⟨hk, rfl⟩ := enter_of_act ha
    refine .of_none rfl ⟨h.free, h.armed, h.announced, fun k' hk' => ?_, h.kept⟩
    rcases List.mem_append.mp hk' with hk' | hk'
    · exact h.calls k' hk'
    · rw [List.mem_singleton.mp hk']
      exact CaptureCall.knows_of_not_holds (CaptureCall.not_holds_of_opens hk) _
  | proceed i =>
    obtain ⟨k, r, next, hi, hk, rfl⟩ := proceed_of_act ha
    exact h.proceed hs hi hk
  | giveUp i =>
    obtain ⟨_, -, -, rfl⟩ := giveUp_of_act ha
    exact .of_none rfl (h.stay (forall_mem_of_eq_none rfl))

/-! ## Every run -/

variable {t : Trace}

/-- Along every run the history is in order, and whoever has the permit knows where its capture
stands. -/
theorem inOrder_of_reaches (h : Reaches t c) : InOrder (events t) ∧ Knows (events t) c := by
  induction h with
  | start now =>
    exact ⟨trivial, fun _ => rfl, fun h0 => (Bool.false_ne_true h0).elim,
      fun h0 => (Nat.zero_ne_one h0).elim, fun _ h0 => (List.not_mem_nil h0).elim,
      fun m hm => by cases hm⟩
  | @act t c c' a h ha ih =>
    obtain ⟨hallowed, hknows⟩ := ih.2.act (sound_of_reaches h) ha
    rw [events_cons]
    refine ⟨?_, hknows⟩
    cases he : c.event? a with
    | none => exact ih.1
    | some e => exact ⟨ih.1, hallowed e he⟩

/-- Nobody gives a unit to a semaphore at its limit. -/
theorem Sound.not_swallowed (h : Sound c) {s : Semaphore} (hs : s ∈ c.receivers a) :
    s.count < s.limit := by
  cases a with
  | proceed i =>
    simp only [receivers] at hs
    split at hs
    · rename_i hi
      obtain ⟨-, -, -, hd⟩ := h.only hi rfl
      rw [List.mem_singleton.mp hs, hd, h.done_limit]
      decide
    · rename_i hi
      obtain ⟨hv, -, -, -⟩ := h.only hi rfl
      rw [List.mem_singleton.mp hs, hv, h.available_limit]
      decide
    · cases hs
  | _ => cases hs

/-- A call that returns has given up, and leaves buffer and recorder alone, or it answers for the
capture collected last. -/
theorem Knows.answers (h : Knows past c) (ha : c.act? a = some c') {buffer b : List Reading}
    {o : CaptureOutcome} (hr : c.returns? buffer a = some (o, b)) :
    (o = .timedOut ∧ b = buffer ∧ c'.recorder = c.recorder) ∨
    (∃ m, lastCollected? past = some m ∧
      (o = .aborted ∧ m.ends = [.cut] ∧ b = buffer ∨
        o = .ok ∧ m.ends = [.windowEnded] ∧ b = fill buffer.length m.readings)) := by
  cases a with
  | proceed i =>
    simp only [returns?] at hr
    split at hr
    · rename_i l hi
      obtain ⟨-, m, hm, htrue⟩ := h.calls _ (List.mem_of_getElem? hi)
      refine .inr ⟨m, hm, ?_⟩
      cases l with
      | none =>
        cases hr
        exact .inl ⟨rfl, htrue, rfl⟩
      | some readings =>
        cases hr
        exact .inr ⟨rfl, htrue.1, by rw [htrue.2]⟩
    · cases hr
  | giveUp i =>
    simp only [returns?] at hr
    split at hr
    · rename_i p hi
      cases hr
      simp only [act?, hi, Option.ite_none_right_eq_some, Option.some.injEq] at ha
      exact .inl ⟨rfl, rfl, by rw [← ha.2]⟩
    · cases hr
  | _ => cases hr

/-- **Exactly one capture at a time, and exactly one truthful result for each.** Whatever the
clients, the timer, its inputs and its handler do, in whatever order: the permit to capture is in
exactly one place, and no semaphore is given a unit at its limit; a capture is armed only when every
earlier one has been collected, ends once, is announced once and is collected once, as it ended; a
call that gives up leaves its buffer and the recorder as they are, and one that collects a capture
answers for that capture alone, and leaves its buffer as it is if an abort ended it; and unless a
capture runs, the timer is not armed, does not count and calls nobody. -/
theorem one_capture_one_result (h : Reaches t c) :
    c.permits = 1 ∧
    (∀ e ∈ t, ∀ s ∈ e.1.receivers e.2, s.count < s.limit) ∧
    InOrder (events t) ∧
    (∀ buffer a c' o b, c.act? a = some c' → c.returns? buffer a = some (o, b) →
      (o = .timedOut ∧ b = buffer ∧ c'.recorder = c.recorder) ∨
      (∃ m, lastCollected? (events t) = some m ∧
        (o = .aborted ∧ m.ends = [.cut] ∧ b = buffer ∨
          o = .ok ∧ m.ends = [.windowEnded] ∧ b = fill buffer.length m.readings))) ∧
    ((∀ m, uncollected? (events t) = some m → m.ends ≠ []) →
      c.recorder.timer.armed = false ∧ c.recorder.timer.since = none ∧
        c.recorder.timer.interrupts = .none) := by
  have hsound := sound_of_reaches h
  obtain ⟨horder, hknows⟩ := inOrder_of_reaches h
  refine ⟨hsound.permit, ?_, horder, fun buffer a c' o b ha hr => hknows.answers ha hr,
    fun hdone => ?_⟩
  · clear hsound horder hknows
    induction h with
    | start _ => exact fun _ h0 => (List.not_mem_nil h0).elim
    | act h ha ih =>
      intro e he s hs
      rcases List.mem_cons.mp he with rfl | he
      · exact (sound_of_reaches h).not_swallowed hs
      · exact ih e he s hs
  · have ha : c.recorder.timer.armed = false := by
      refine eq_false_of_ne_true fun ha => ?_
      obtain ⟨m, hm, hruns⟩ := hknows.armed ha
      exact hdone m hm hruns.1
    obtain ⟨hint, hsince⟩ := hsound.rests ha
    exact ⟨ha, hsince, hint⟩

/-- One channel, captured upwards, with a timeout and a bounce of one tick each. -/
def oneTick : CaptureSetup := ⟨⟨⟨.upward, .rising, ""⟩, .unused⟩, 20, 20⟩

/-- A capture is aborted and collected, and the next one runs to its end and is read out. -/
def abortedThenRead : List Action :=
  List.flatten [
    [.enter (.takingPermit oneTick .upward), .proceed 0, .proceed 0, .trigger],
    [.enter .cutting, .proceed 0, .proceed 0],
    [.enter (.takingEnd .forever), .proceed 0, .proceed 0, .proceed 0],
    [.enter (.takingPermit oneTick .upward), .proceed 0, .proceed 0, .trigger],
    [.enter .handling, .proceed 0, .edge ⟨0, Nat.zero_lt_two⟩ .rising],
    [.enter .handling, .proceed 0, .wait 20],
    [.expire, .enter .handling, .proceed 0, .proceed 0],
    [.enter (.takingEnd .forever), .proceed 0, .proceed 0]]

theorem one_capture_one_result_abortedThenRead :
    ∃ t c, play? act? [] ⟨.initial, 0, []⟩ abortedThenRead = some (t, c) ∧
      c.returns? [.blank, .blank] (.proceed 0) = some (.ok, [⟨.ok, 0⟩, .blank]) ∧
      events t = [.collected (some [⟨.ok, 0⟩]), .announced, .windowEnded, .taken 0 0,
        .armed oneTick .upward, .collected none, .announced, .cut, .armed oneTick .upward] ∧
      c.permits = 1 ∧
      (∀ e ∈ t, ∀ s ∈ e.1.receivers e.2, s.count < s.limit) ∧
      InOrder (events t) ∧
      (∀ buffer a c' o b, c.act? a = some c' → c.returns? buffer a = some (o, b) →
        (o = .timedOut ∧ b = buffer ∧ c'.recorder = c.recorder) ∨
        (∃ m, lastCollected? (events t) = some m ∧
          (o = .aborted ∧ m.ends = [.cut] ∧ b = buffer ∨
            o = .ok ∧ m.ends = [.windowEnded] ∧ b = fill buffer.length m.readings))) ∧
      ((∀ m, uncollected? (events t) = some m → m.ends ≠ []) →
        c.recorder.timer.armed = false ∧ c.recorder.timer.since = none ∧
          c.recorder.timer.interrupts = .none) := by
  refine ⟨_, _, rfl, by decide, by decide, ?_⟩
  exact one_capture_one_result
    (of_play? (P := Reaches) (fun _ _ _ _ => .act) abortedThenRead (.start 0) rfl)

end Crowd

end Recorder

end SwitchBench
