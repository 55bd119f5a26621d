import SwitchBench.Proofs.Capture.OneCapture
import SwitchBench.Proofs.Drive.Stride
import SwitchBench.Proofs.Sampling.Turn

/-!
# A sampler and its crew

`Crew` is a rig with a sampler at work and with everybody who may act on the rig meanwhile: the
stepper, whoever switches the power or asks the move to stop, the capture timer with its handler
and its inputs, whoever aborts a capture, and whoever sends messages. A step with the power on is
the trigger of the capture timer. Only the sampler starts and collects moves and captures.

To the drive and to the recorder the sampler is one more client, in the middle of at most one call
on each (`Sampler.moveCall`, `Sampler.captureCall`). So every crew has a crowd around its drive and
one around its recorder, and both are sound.

Results: `drive_of_turn` and `recorder_of_turn` (the sampler acts on both as its calls do),
`drive_of_act` and `recorder_of_act` (every action of a crew keeps both crowds sound).
-/

namespace SwitchBench

open Drive (MoveStage MoveEvent)

namespace Sampler

/-- The call on the drive that a sampler is in the middle of. -/
def moveCall (s : Sampler) : Option MoveCall :=
  match s.phase with
  | .takingDrive => some (.takingPermit s.moveOrder)
  | .launching => some (.launching s.moveOrder)
  | .announcing l => some (.announcing l)
  | .takingMove _ => some (.takingEnd .forever)
  | .readingMove _ => some .readingOutcome
  | .freeingDrive _ => some (.givingPermit (s.moveEnd.getD .ok))
  | _ => none

/-- The call on the recorder that a sampler is in the middle of. -/
def captureCall (s : Sampler) : Option CaptureCall :=
  match s.phase with
  | .takingRecorder => some (.takingPermit s.order.setup s.order.directions)
  | .arming => some (.arming s.order.setup s.order.directions)
  | .abortingCapture _ _ | .cuttingCapture _ => some .cutting
  | .announcingAbort _ _ | .announcingCut _ => some .announcing
  | .takingCapture => some (.takingEnd .forever)
  | .readingChannels => some .reading
  | .freeingRecorder l => some (.givingPermit l)
  | _ => none

end Sampler

/-! ## Everybody else -/

/-- Does a call neither start nor collect a capture? -/
def CaptureCall.isBystander : CaptureCall → Bool
  | cutting | handling | announcing => true
  | _ => false

/-- Is it an action of somebody who neither starts nor collects a move? -/
def Drive.Action.isBystander : Drive.Action → Bool
  | stepper _ | powerOn | powerOff | abort | locate => true
  | _ => false

/-- Is it an action of somebody who neither starts nor collects a capture, or of the timer? -/
def Recorder.Action.isBystander : Recorder.Action → Bool
  | edge _ _ | expire | wait _ | proceed _ => true
  | enter k => k.isBystander
  | _ => false

/-- A rig, a sampler at work, and the calls that others have in progress on the recorder. -/
structure Crew where
  rig : Rig
  now : Nat
  sampler : Sampler
  others : List CaptureCall
  deriving DecidableEq, Repr

namespace Crew

/-- One action of the sampler or of somebody else. -/
inductive Action where
  | drive (a : Drive.Action)
  | recorder (a : Recorder.Action)
  | send (m : Message)
  | sampler
  deriving DecidableEq, Repr

/-- Another state of the drive; if it stepped, the capture timer sees a trigger edge. -/
def follow (c : Crew) (d : Drive) : Crew :=
  { c with rig := { c.rig with
      drive := d
      recorder.timer :=
        if Drive.pulses c.rig.drive d then (c.rig.recorder.timer.trigger c.now).1
        else c.rig.recorder.timer } }

/-- One action, if it is possible. -/
def act? (c : Crew) : Action → Option Crew
  | .drive a =>
    if a.isBystander then (Drive.Crowd.act? ⟨c.rig.drive, []⟩ a).map fun x => c.follow x.drive
    else none
  | .recorder a =>
    if a.isBystander then
      (Recorder.Crowd.act? ⟨c.rig.recorder, c.now, c.others⟩ a).map fun x =>
        { c with rig := { c.rig with recorder := x.recorder }, now := x.now, others := x.calls }
    else none
  | .send m => some { c with rig := { c.rig with inbox := (c.rig.inbox.push m).1 } }
  | .sampler => (c.sampler.step c.now c.rig).map fun x => { c with rig := x.1, sampler := x.2.1 }

/-- What an action can do to a crew. -/
inductive Turn (c : Crew) : Action → Crew → Prop
  | drive {a : Drive.Action} {x : Drive.Crowd} (hb : a.isBystander = true)
      (hx : Drive.Crowd.act? ⟨c.rig.drive, []⟩ a = some x) : Turn c (.drive a) (c.follow x.drive)
  | recorder {a : Recorder.Action} {x : Recorder.Crowd} (hb : a.isBystander = true)
      (hx : Recorder.Crowd.act? ⟨c.rig.recorder, c.now, c.others⟩ a = some x) :
      Turn c (.recorder a)
        { c with rig := { c.rig with recorder := x.recorder }, now := x.now, others := x.calls }
  | send (m : Message) :
      Turn c (.send m) { c with rig := { c.rig with inbox := (c.rig.inbox.push m).1 } }
  | sampler {r : Rig} {s : Sampler} {note : Option SampleNote}
      (hs : c.sampler.step c.now c.rig = some (r, s, note)) :
      Turn c .sampler { c with rig := r, sampler := s }

theorem turn_of_act {c c' : Crew} {a : Action} (ha : c.act? a = some c') : c.Turn a c' := by
  cases a with
  | drive a =>
    simp only [act?, Option.ite_none_right_eq_some, Option.map_eq_some_iff] at ha
    obtain ⟨hb, x, hx, rfl⟩ := ha
    exact .drive hb hx
  | recorder a =>
    simp only [act?, Option.ite_none_right_eq_some, Option.map_eq_some_iff] at ha
    obtain ⟨hb, x, hx, rfl⟩ := ha
    exact .recorder hb hx
  | send m =>
    cases ha
    exact .send m
  | sampler =>
    simp only [act?, Option.map_eq_some_iff] at ha
    obtain ⟨⟨r, s, note⟩, hs, rfl⟩ := ha
    exact .sampler hs

/-- The sampler's action is a step of its program. -/
theorem step_of_act {c c' : Crew} (ha : c.act? .sampler = some c') :
    ∃ r s note, c.sampler.step c.now c.rig = some (r, s, note) ∧
      c' = { c with rig := r, sampler := s } := by
  cases turn_of_act ha with
  | sampler hs => exact ⟨_, _, _, hs, rfl⟩

/-- The actions so far, each with the state it was done in, newest first. -/
abbrev Trace := List (Crew × Action)

/-- The states that a crew can come to, by any actions in any order, from the start of any sample
on any rig that nobody else is starting or collecting a move or a capture of. -/
inductive Reaches (p : StepPeriods) (rate : Nat) : Trace → Crew → Prop
  | start {t : Drive.Crowd.Trace} {t' : Recorder.Crowd.Trace} {d : Drive} {r : Recorder} {now : Nat}
      {others : List CaptureCall} {inbox : Inbox} {o : SampleOrder} {buffer : List Reading}
      {s : Sampler} (hd : Drive.Crowd.Reaches p rate t ⟨d, []⟩)
      (hr : Recorder.Crowd.Reaches t' ⟨r, now, others⟩) (ho : ∀ k ∈ others, k.isBystander = true)
      (hs : Sampler.start o buffer = .ok s) : Reaches p rate [] ⟨⟨d, r, inbox⟩, now, s, others⟩
  | act {t : Trace} {c c' : Crew} {a : Action} (h : Reaches p rate t c) (ha : c.act? a = some c') :
      Reaches p rate ((c, a) :: t) c'

/-- A sample of one step up, with the shortest window and no channel to capture. -/
def stepUp : SampleOrder := ⟨-1, .fastest, .idle, .upward⟩

/-- A rig that was just taken over, with a sampler on it. -/
def fresh (d : Drive) (s : Sampler) : Crew := ⟨⟨d, .initial, .empty⟩, 0, s, []⟩

theorem reaches_fresh {p : StepPeriods} {rate : Nat} {d : Drive} {s : Sampler} (o : SampleOrder)
    (buffer : List Reading) (hd : Drive.ofPeriods p rate = .ok d)
    (hs : Sampler.start o buffer = .ok s) : Reaches p rate [] (fresh d s) :=
  .start (.start hd) (.start 0) (fun _ h0 => (List.not_mem_nil h0).elim) hs

/-- The crowd around the drive. -/
def driveCrowd (c : Crew) : Drive.Crowd := ⟨c.rig.drive, c.sampler.moveCall.toList⟩

/-- The crowd around the recorder. -/
def recorderCrowd (c : Crew) : Recorder.Crowd :=
  ⟨c.rig.recorder, c.now, c.sampler.captureCall.toList ++ c.others⟩

/-- What an action means for the move. -/
def event? (c : Crew) : Action → Option MoveEvent
  | .drive a => c.driveCrowd.event? a
  | .sampler =>
    match c.sampler.phase with
    | .abortingMove _ _ => c.driveCrowd.event? .abort
    | _ => c.driveCrowd.event? (.proceed 0)
  | _ => none

end Crew

/-! ## The sampler as a client -/

namespace Sampler

variable {now : Nat} {r r' : Rig} {s s' : Sampler}

theorem calls_of_isLooking (h : s.phase.isLooking = true) :
    s.moveCall = none ∧ s.captureCall = none := by
  unfold moveCall captureCall
  cases hp : s.phase <;> rw [hp] at h <;> first | cases h; done | exact ⟨rfl, rfl⟩

theorem calls_of_isCutting (h : s.phase.isCutting = true) :
    s.moveCall = none ∧ s.captureCall = some .cutting := by
  unfold moveCall captureCall
  cases hp : s.phase <;> rw [hp] at h <;> first | cases h; done | exact ⟨rfl, rfl⟩

theorem calls_of_isTelling (h : s.phase.isTelling = true) :
    s.moveCall = none ∧ s.captureCall = some .announcing := by
  unfold moveCall captureCall
  cases hp : s.phase <;> rw [hp] at h <;> first | cases h; done | exact ⟨rfl, rfl⟩

/-- A sampler that goes on holds no permit but those it has put to work. -/
theorem moveCall_of_next {p : SamplerPhase} (h : s.Next p) :
    ∀ k ∈ (s.goto p).moveCall, k.holds = false := by
  intro k hk
  cases h with
  | @look p hp => cases p <;> first | cases hp; done | cases hk
  | takeMove _ =>
    cases hk
    rfl
  | takeCapture _ => cases hk
  | @conclude m c _ _ =>
    simp only [goto, moveCall] at hk
    cases hc : Sampler.conclude m c s.userAborted <;> rw [hc] at hk <;> cases hk

theorem captureCall_of_next {p : SamplerPhase} (h : s.Next p) :
    ∀ k ∈ (s.goto p).captureCall, k.holds = false := by
  intro k hk
  cases h with
  | @look p hp => cases p <;> first | cases hp; done | cases hk
  | takeMove _ => cases hk
  | takeCapture _ =>
    cases hk
    rfl
  | @conclude m c _ _ =>
    simp only [goto, captureCall] at hk
    cases hc : Sampler.conclude m c s.userAborted <;> rw [hc] at hk <;> cases hk

/-- **To the drive, a sampler is a client**: its call acts, or it asks the move to stop, or it
leaves the drive alone. Then it may begin to wait in another call. -/
theorem drive_of_turn (h : Turn now r s r' s') :
    (∃ k next, s.moveCall = some k ∧ k.step? r.drive = some (r'.drive, next) ∧
      (s'.moveCall = next ∨ next = none ∧ ∀ k' ∈ s'.moveCall, k'.holds = false)) ∨
    (∃ moved captured, s.phase = .abortingMove moved captured ∧ r'.drive = r.drive.abort.1 ∧
      s'.moveCall = none) ∨
    (s.moveCall = none ∧ r'.drive = r.drive ∧ ∀ k ∈ s'.moveCall, k.holds = false) := by
  have hcall : ∀ {p}, s.phase = p → s.moveCall = (s.goto p).moveCall := by
    rintro _ rfl
    rfl
  cases h with
  | leave hp => exact .inr (.inr ⟨hcall hp, rfl, forall_mem_of_eq_none rfl⟩)
  | seek hp => exact .inr (.inr ⟨hcall hp, rfl, forall_mem_of_eq_none rfl⟩)
  | takeRecorder hp _ => exact .inr (.inr ⟨hcall hp, rfl, forall_mem_of_eq_none rfl⟩)
  | arm hp =>
    refine .inr (.inr ⟨hcall hp, rfl, fun k hk => ?_⟩)
    cases hk
    rfl
  | takeDrive hp hd =>
    exact .inl ⟨_, _, hcall hp, by simp only [MoveCall.step?, hd]; rfl, .inl rfl⟩
  | launch hp => exact .inl ⟨_, _, hcall hp, rfl, .inl rfl⟩
  | @announce l p hp hn =>
    refine .inl ⟨_, none, hcall hp, rfl, .inl ?_⟩
    rw [hn]
    cases l <;> rfl
  | look hp hn => exact .inr (.inr ⟨(calls_of_isLooking hp).1, rfl, moveCall_of_next hn⟩)
  | hear hp => exact .inr (.inr ⟨hcall hp, rfl, forall_mem_of_eq_none rfl⟩)
  | abortMove hp => exact .inr (.inl ⟨_, _, hp, rfl, rfl⟩)
  | @cut p hp hn =>
    refine .inr (.inr ⟨(calls_of_isCutting hp).1, rfl, ?_⟩)
    split at hn
    · exact forall_mem_of_eq_none (calls_of_isTelling (s := s.goto p) hn).1
    · exact moveCall_of_next hn
  | tell hp hn => exact .inr (.inr ⟨(calls_of_isTelling hp).1, rfl, moveCall_of_next hn⟩)
  | takeMove hp hd =>
    exact .inl ⟨_, _, hcall hp, by simp only [MoveCall.step?, hd]; rfl, .inl rfl⟩
  | readMove hp => exact .inl ⟨_, _, hcall hp, rfl, .inl rfl⟩
  | freeDrive hp hn =>
    refine .inl ⟨_, none, hcall hp, rfl, .inr ⟨rfl, ?_⟩⟩
    split at hn
    · rw [hn]
      exact forall_mem_of_eq_none rfl
    · exact moveCall_of_next hn
  | takeCapture hp hc => exact .inr (.inr ⟨hcall hp, rfl, forall_mem_of_eq_none rfl⟩)
  | readChannels hp => exact .inr (.inr ⟨hcall hp, rfl, forall_mem_of_eq_none rfl⟩)
  | @freeRecorder l k b p hp hk hn =>
    exact .inr (.inr ⟨hcall hp, rfl,
      moveCall_of_next (s := { s with captureEnd := some k, buffer := b }) hn⟩)

/-- **To the recorder, a sampler is a client**: its call acts, or it leaves the recorder alone.
Then it may begin to wait in another call. -/
theorem recorder_of_turn (h : Turn now r s r' s') :
    (∃ k next, s.captureCall = some k ∧ k.step? now r.recorder = some (r'.recorder, next) ∧
      (s'.captureCall = next ∨ next = none ∧ ∀ k' ∈ s'.captureCall, k'.holds = false)) ∨
    (s.captureCall = none ∧ r'.recorder = r.recorder ∧
      ∀ k ∈ s'.captureCall, k.holds = false) := by
  have hcall : ∀ {p}, s.phase = p → s.captureCall = (s.goto p).captureCall := by
    rintro _ rfl
    rfl
  cases h with
  | leave hp => exact .inr ⟨hcall hp, rfl, forall_mem_of_eq_none rfl⟩
  | seek hp =>
    refine .inr ⟨hcall hp, rfl, fun k hk => ?_⟩
    cases hk
    rfl
  | takeRecorder hp hc =>
    exact .inl ⟨_, _, hcall hp, by simp only [CaptureCall.step?, hc]; rfl, .inl rfl⟩
  | arm hp => exact .inl ⟨_, _, hcall hp, rfl, .inl rfl⟩
  | takeDrive hp hd => exact .inr ⟨hcall hp, rfl, forall_mem_of_eq_none rfl⟩
  | launch hp => exact .inr ⟨hcall hp, rfl, forall_mem_of_eq_none rfl⟩
  | @announce l p hp hn =>
    refine .inr ⟨hcall hp, rfl, ?_⟩
    rw [hn]
    cases l <;> exact forall_mem_of_eq_none rfl
  | look hp hn => exact .inr ⟨(calls_of_isLooking hp).2, rfl, captureCall_of_next hn⟩
  | hear hp => exact .inr ⟨hcall hp, rfl, forall_mem_of_eq_none rfl⟩
  | abortMove hp =>
    refine .inr ⟨hcall hp, rfl, fun k hk => ?_⟩
    cases hk
    rfl
  | @cut p hp hn =>
    refine .inl ⟨_, _, (calls_of_isCutting hp).2, rfl, ?_⟩
    rw [Recorder.snd_cut]
    split at hn
    · rename_i ha
      rw [if_pos ha]
      exact .inl (calls_of_isTelling (s := s.goto p) hn).2
    · rename_i ha
      rw [if_neg ha]
      exact .inr ⟨rfl, captureCall_of_next hn⟩
  | tell hp hn =>
    exact .inl ⟨_, _, (calls_of_isTelling hp).2, rfl, .inr ⟨rfl, captureCall_of_next hn⟩⟩
  | takeMove hp hd => exact .inr ⟨hcall hp, rfl, forall_mem_of_eq_none rfl⟩
  | readMove hp => exact .inr ⟨hcall hp, rfl, forall_mem_of_eq_none rfl⟩
  | freeDrive hp hn =>
    refine .inr ⟨hcall hp, rfl, ?_⟩
    split at hn
    · rw [hn]
      intro k hk
      cases hk
      rfl
    · exact captureCall_of_next hn
  | takeCapture hp hc =>
    exact .inl ⟨_, _, hcall hp, by simp only [CaptureCall.step?, hc]; rfl, .inl rfl⟩
  | readChannels hp => exact .inl ⟨_, _, hcall hp, rfl, .inl rfl⟩
  | @freeRecorder l k b p hp hk hn =>
    exact .inl ⟨_, none, hcall hp, rfl, .inr ⟨rfl,
      captureCall_of_next (s := { s with captureEnd := some k, buffer := b }) hn⟩⟩

end Sampler

/-! ## Both crowds are sound -/

/-- What a bystander does to a drive does not depend on the calls of its clients. -/
theorem Drive.Crowd.act?_of_isBystander {a : Drive.Action} (ha : a.isBystander = true) {d : Drive}
    {x : Drive.Crowd} (h : Drive.Crowd.act? ⟨d, []⟩ a = some x) (calls : List MoveCall) :
    Drive.Crowd.act? ⟨d, calls⟩ a = some ⟨x.drive, calls⟩ := by
  cases a with
  | stepper _ | powerOn | powerOff | abort | locate =>
    cases h
    rfl
  | enter _ | proceed _ | giveUp _ => cases ha

/-- The action of a call, if some others are ahead of it on the roster. -/
def Recorder.Action.behind (n : Nat) : Recorder.Action → Recorder.Action
  | proceed i => proceed (n + i)
  | giveUp i => giveUp (n + i)
  | a => a

/-- What a bystander does on a recorder it does as well with other clients ahead of it. -/
theorem Recorder.Crowd.act?_behind {a : Recorder.Action} (ha : a.isBystander = true)
    {c x : Recorder.Crowd} (h : c.act? a = some x) (ahead : List CaptureCall) :
    Recorder.Crowd.act? { c with calls := ahead ++ c.calls } (a.behind ahead.length)
      = some { x with calls := ahead ++ x.calls } := by
  cases a with
  | edge _ _ | wait _ =>
    cases h
    rfl
  | expire =>
    obtain ⟨due, hd, hle, rfl⟩ := expire_of_act h
    simp only [Action.behind, act?, hd, if_pos hle]
  | enter k =>
    obtain ⟨hk, rfl⟩ := enter_of_act h
    simp only [Action.behind, act?, if_pos hk, List.append_assoc]
  | proceed i =>
    obtain ⟨k, r, next, hi, hs, rfl⟩ := proceed_of_act h
    have hi' : (ahead ++ c.calls)[ahead.length + i]? = some k := by
      rw [List.getElem?_append_right (Nat.le_add_right _ _), Nat.add_sub_cancel_left, hi]
    simp only [Action.behind, act?, hi', Option.bind_eq_bind, Option.bind_some, hs,
      Option.pure_def, putAt_append]
  | trigger | giveUp _ => cases ha

/-- What a bystander's action, or one of the timer, does to a recorder. -/
inductive Recorder.Crowd.BystanderTurn (c : Recorder.Crowd) :
    Recorder.Action → Recorder.Crowd → Prop
  | edge (ch : Channel) (e : Edge) :
      BystanderTurn c (.edge ch e) { c with recorder.timer := (c.recorder.timer.edge ch e c.now).1 }
  | expire {due : Nat} (hd : c.recorder.timer.expiry = some due) (hle : due ≤ c.now) :
      BystanderTurn c .expire { c with recorder.timer := c.recorder.timer.expire due }
  | wait (us : Nat) : BystanderTurn c (.wait us) { c with now := c.now + us }
  | enter {k : CaptureCall} (hk : k.isBystander = true) :
      BystanderTurn c (.enter k) { c with calls := c.calls ++ [k] }
  | cut {i : Nat} (hi : c.calls[i]? = some .cutting) :
      BystanderTurn c (.proceed i) { c with
        recorder := (c.recorder.cut c.now).1
        calls := putAt c.calls i (if (c.recorder.cut c.now).2 then some .announcing else none) }
  | service {i : Nat} (hi : c.calls[i]? = some .handling) :
      BystanderTurn c (.proceed i) { c with
        recorder := (c.recorder.service c.now).1
        calls := putAt c.calls i (if (c.recorder.service c.now).2 then some .announcing else none) }
  | announce {i : Nat} (hi : c.calls[i]? = some .announcing) :
      BystanderTurn c (.proceed i) { c with
        recorder := c.recorder.announce
        calls := putAt c.calls i none }

theorem Recorder.Crowd.bystanderTurn_of_act {a : Recorder.Action} {c x : Recorder.Crowd}
    (ha : a.isBystander = true) (hc : ∀ k ∈ c.calls, k.isBystander = true)
    (h : c.act? a = some x) : c.BystanderTurn a x := by
  cases a with
  | edge ch e =>
    cases h
    exact .edge ch e
  | wait us =>
    cases h
    exact .wait us
  | expire =>
    obtain ⟨due, hd, hle, rfl⟩ := expire_of_act h
    exact .expire hd hle
  | enter k =>
    obtain ⟨-, rfl⟩ := enter_of_act h
    exact .enter ha
  | proceed i =>
    obtain ⟨k, r, next, hi, hs, rfl⟩ := proceed_of_act h
    cases k with
    | cutting =>
      cases hs
      exact .cut hi
    | handling =>
      cases hs
      exact .service hi
    | announcing =>
      cases hs
      exact .announce hi
    | takingPermit _ _ | arming _ _ | takingEnd _ | reading | givingPermit _ =>
      cases hc _ (List.mem_of_getElem? hi)
  | trigger | giveUp _ => cases ha

/-- A client with no call may begin to wait in one. -/
theorem Drive.Crowd.Sound.begin {g : MoveStage} {d : Drive} (h : Sound g ⟨d, []⟩)
    {k : Option MoveCall} (hk : ∀ x ∈ k, x.holds = false) : Sound g ⟨d, k.toList⟩ :=
  h.waiters (countP_toList_eq_zero hk) fun x hx => .inr (hk x (Option.mem_toList.mp hx))

theorem Recorder.Crowd.Sound.begin {r : Recorder} {now : Nat} {others : List CaptureCall}
    (h : Sound ⟨r, now, others⟩) {k : Option CaptureCall} (hk : ∀ x ∈ k, x.holds = false) :
    Sound ⟨r, now, k.toList ++ others⟩ := by
  refine h.waiters ?_
  rw [List.countP_append, countP_toList_eq_zero hk, Nat.zero_add]

/-- After its call a client may begin to wait in another one. -/
theorem Drive.Crowd.Sound.goOn {g : MoveStage} {d : Drive} {next mine : Option MoveCall}
    (h : Sound g ⟨d, next.toList⟩)
    (hm : mine = next ∨ next = none ∧ ∀ k ∈ mine, k.holds = false) :
    Sound g ⟨d, mine.toList⟩ := by
  rcases hm with rfl | ⟨rfl, hk⟩
  · exact h
  · exact h.begin hk

theorem Recorder.Crowd.Sound.goOn {r : Recorder} {now : Nat} {others : List CaptureCall}
    {next mine : Option CaptureCall} (h : Sound ⟨r, now, next.toList ++ others⟩)
    (hm : mine = next ∨ next = none ∧ ∀ k ∈ mine, k.holds = false) :
    Sound ⟨r, now, mine.toList ++ others⟩ := by
  rcases hm with rfl | ⟨rfl, hk⟩
  · exact h
  · exact Recorder.Crowd.Sound.begin h hk

namespace Crew

variable {g : MoveStage} {c c' : Crew} {a : Action}

/-- **Every action of a crew is at most one of the crowd around its drive**, and then perhaps a
call that waits. -/
theorem drive_of_act (h : Drive.Crowd.Sound g c.driveCrowd) (ha : c.act? a = some c') :
    Drive.Crowd.Sound (g.after (c.event? a)) c'.driveCrowd := by
  cases turn_of_act ha with
  | @drive a x hb hx =>
    exact h.act (Drive.Crowd.act?_of_isBystander hb hx _)
  | @recorder a x hb hx =>
    exact h
  | send m =>
    exact h
  | @sampler r s n hs =>
    by_cases hab : ∃ moved captured, c.sampler.phase = .abortingMove moved captured
    · obtain ⟨m, k, hp⟩ := hab
      have hev : c.event? .sampler = c.driveCrowd.event? .abort := by simp only [event?, hp]
      rw [hev]
      simp only [Sampler.step, hp] at hs
      cases hs
      have h0 : c.driveCrowd = ⟨c.rig.drive, []⟩ := by
        simp only [driveCrowd, Sampler.moveCall, hp]
        rfl
      have := h.abort
      rw [h0] at this ⊢
      exact this
    · have hev : c.event? .sampler = c.driveCrowd.event? (.proceed 0) := by
        simp only [event?]
        split
        · rename_i hp
          exact absurd ⟨_, _, hp⟩ hab
        · rfl
      rw [hev]
      rcases Sampler.drive_of_turn (Sampler.turn_of_step hs) with
        ⟨k, next, hk, hd, hn⟩ | ⟨m, k, hp, -⟩ | ⟨hk, hd, hn⟩
      · have h0 : c.driveCrowd = ⟨c.rig.drive, [k]⟩ := by simp only [driveCrowd, hk]; rfl
        rw [h0] at h ⊢
        have := h.proceed (i := 0) rfl hd
        rw [putAt_cons_zero, List.append_nil] at this
        exact this.goOn hn
      · exact absurd ⟨m, k, hp⟩ hab
      · have h0 : c.driveCrowd = ⟨c.rig.drive, []⟩ := by simp only [driveCrowd, hk]; rfl
        rw [h0] at h ⊢
        rw [← hd] at h
        exact h.begin hn

/-- **Every action of a crew is at most one of the crowd around its recorder**, and then perhaps a
call that waits. -/
theorem recorder_of_act (h : c.recorderCrowd.Sound) (ha : c.act? a = some c') :
    c'.recorderCrowd.Sound := by
  cases turn_of_act ha with
  | @drive a x hb hx =>
    simp only [follow, recorderCrowd]
    split
    · obtain ⟨h1, h2⟩ := h.rests.trigger c.now
      exact h.retime h1 h2 c.now
    · exact h
  | @recorder a x hb hx =>
    exact h.act (Recorder.Crowd.act?_behind hb hx c.sampler.captureCall.toList)
  | send m =>
    exact h
  | @sampler r s n hs =>
    rcases Sampler.recorder_of_turn (Sampler.turn_of_step hs) with
      ⟨k, next, hk, hr, hn⟩ | ⟨hk, hr, hn⟩
    · have h0 : c.recorderCrowd = ⟨c.rig.recorder, c.now, k :: c.others⟩ := by
        simp only [recorderCrowd, hk]
        rfl
      rw [h0] at h
      have := h.proceed (i := 0) rfl hr
      rw [putAt_cons_zero] at this
      exact this.goOn hn
    · have h0 : c.recorderCrowd = ⟨c.rig.recorder, c.now, c.others⟩ := by
        simp only [recorderCrowd, hk]
        rfl
      rw [h0, ← hr] at h
      exact h.begin hn

end Crew

end SwitchBench
