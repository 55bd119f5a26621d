import Mathlib.Data.List.Induction
import SwitchBench.Proofs.Capture.Elapse

/-!
# What comes in during a capture

Trigger edges and edges at the channels come in at any instants, several of them at one instant if
they like, as long as time does not go back. Those before the first trigger find the capture armed
and are lost, a later trigger changes nothing, and of the edges after the first trigger the window
takes those that come before its end (`CaptureSetup.taken`).

Results: `CaptureSetup.taken_split` (the edges that a window takes are the first ones, and the rest
come after its end), `opened_feed` (where a capture stands after all inputs so far), and
`recorder_at` (what it has come to at any time).
-/

namespace SwitchBench

/-- An edge at one of the inputs of the capture timer. -/
inductive CaptureInput where
  | trigger
  | edge (channel : Nat) (e : Edge)
  deriving DecidableEq, Repr

namespace CaptureInput

/-- The edges at channels among some inputs. -/
def arrivals : List (Nat × CaptureInput) → List Arrival
  | [] => []
  | (_, .trigger) :: l => arrivals l
  | (t, .edge n e) :: l => (t, n, e) :: arrivals l

/-- When the first trigger among some inputs comes, and the edges at channels after it. -/
def opening? : List (Nat × CaptureInput) → Option (Nat × List Arrival)
  | [] => none
  | (t, .trigger) :: l => some (t, arrivals l)
  | (_, .edge _ _) :: l => opening? l

theorem exists_mem_of_mem_arrivals {l : List (Nat × CaptureInput)} {a : Arrival}
    (h : a ∈ arrivals l) : ∃ x ∈ l, x.1 = a.1 := by
  induction l with
  | nil => cases h
  | cons x l ih =>
    obtain ⟨t, _ | ⟨n, e⟩⟩ := x
    · obtain ⟨y, hy, he⟩ := ih h
      exact ⟨y, List.mem_cons_of_mem _ hy, he⟩
    · rcases List.mem_cons.mp h with rfl | h
      · exact ⟨_, List.mem_cons_self, rfl⟩
      · obtain ⟨y, hy, he⟩ := ih h
        exact ⟨y, List.mem_cons_of_mem _ hy, he⟩

theorem arrivals_append (l l' : List (Nat × CaptureInput)) :
    arrivals (l ++ l') = arrivals l ++ arrivals l' := by
  induction l with
  | nil => rfl
  | cons x l ih =>
    obtain ⟨t, _ | ⟨n, e⟩⟩ := x
    · exact ih
    · exact congrArg (_ :: ·) ih

theorem opening?_append (l l' : List (Nat × CaptureInput)) :
    opening? (l ++ l') =
      match opening? l with
      | some (start, seen) => some (start, seen ++ arrivals l')
      | none => opening? l' := by
  induction l with
  | nil => rfl
  | cons x l ih =>
    obtain ⟨t, _ | ⟨n, e⟩⟩ := x
    · exact congrArg (fun seen => some (t, seen)) (arrivals_append l l')
    · exact ih

/-- Edges are in the order of the inputs they are among. -/
theorem pairwise_arrivals {l : List (Nat × CaptureInput)} (h : l.Pairwise (·.1 ≤ ·.1)) :
    (arrivals l).Pairwise (·.1 ≤ ·.1) := by
  induction l with
  | nil => exact .nil
  | cons x l ih =>
    obtain ⟨hx, hl⟩ := List.pairwise_cons.mp h
    obtain ⟨t, _ | ⟨n, e⟩⟩ := x
    · exact ih hl
    · refine List.pairwise_cons.mpr ⟨fun a ha => ?_, ih hl⟩
      obtain ⟨y, hy, he⟩ := exists_mem_of_mem_arrivals ha
      exact he ▸ hx y hy

/-- A trigger is among the inputs, and the edges after it come after it, in order. -/
theorem opening?_order {l : List (Nat × CaptureInput)} (h : l.Pairwise (·.1 ≤ ·.1)) {start : Nat}
    {seen : List Arrival} (ho : opening? l = some (start, seen)) :
    (∃ x ∈ l, x.1 = start) ∧ (∀ a ∈ seen, start ≤ a.1) ∧ seen.Pairwise (·.1 ≤ ·.1) := by
  induction l with
  | nil => cases ho
  | cons x l ih =>
    obtain ⟨hx, hl⟩ := List.pairwise_cons.mp h
    obtain ⟨t, _ | ⟨n, e⟩⟩ := x
    · cases ho
      refine ⟨⟨_, List.mem_cons_self, rfl⟩, fun a ha => ?_, pairwise_arrivals hl⟩
      obtain ⟨y, hy, he⟩ := exists_mem_of_mem_arrivals ha
      exact he ▸ hx y hy
    · obtain ⟨⟨y, hy, he⟩, hlater⟩ := ih hl ho
      exact ⟨⟨y, List.mem_cons_of_mem _ hy, he⟩, hlater⟩

/-- What comes in up to some time. -/
def upTo (T : Nat) (l : List (Nat × CaptureInput)) : List (Nat × CaptureInput) :=
  l.takeWhile (·.1 ≤ T)

/-- Inputs in order come up to some time, or after it. -/
theorem upTo_append {T : Nat} {l : List (Nat × CaptureInput)} (h : l.Pairwise (·.1 ≤ ·.1)) :
    ∃ later, l = upTo T l ++ later ∧ (∀ x ∈ upTo T l, x.1 ≤ T) ∧ ∀ x ∈ later, T < x.1 := by
  unfold upTo
  induction l with
  | nil => exact ⟨[], rfl, nofun, nofun⟩
  | cons x l ih =>
    obtain ⟨hx, hl⟩ := List.pairwise_cons.mp h
    by_cases hT : x.1 ≤ T
    · obtain ⟨later, he, hle, hlt⟩ := ih hl
      simp only [List.takeWhile_cons, hT, decide_true, if_true]
      refine ⟨later, congrArg (x :: ·) he, fun y hy => ?_, hlt⟩
      rcases List.mem_cons.mp hy with rfl | hy
      · exact hT
      · exact hle y hy
    · simp only [List.takeWhile_cons, hT, decide_false, Bool.false_eq_true, if_false]
      refine ⟨x :: l, rfl, nofun, fun y hy => ?_⟩
      rcases List.mem_cons.mp hy with rfl | hy
      · exact Nat.not_le.mp hT
      · exact Nat.lt_of_lt_of_le (Nat.not_le.mp hT) (hx y hy)

end CaptureInput

/-! ## The edges that a window takes -/

theorem noLater_of_pairwise {l l' : List Arrival} (h : (l ++ l').Pairwise (·.1 ≤ ·.1)) :
    NoLater l l' :=
  fun a ha b hb => (List.pairwise_append.mp h).2.2 a ha b hb

namespace CaptureSetup

variable (s : CaptureSetup) (d : Directions) (start : Nat)

/-- A window takes an arrival if that comes before its end. -/
def take (seen : List Arrival) (a : Arrival) : List Arrival :=
  if a.1 < s.windowEnd d start seen then seen ++ [a] else seen

/-- The arrivals that a window takes. -/
def taken (l : List Arrival) : List Arrival := l.foldl (s.take d start) []

variable {s d start}

/-- **A window takes arrivals up to one, and the rest come after its end.** -/
theorem taken_split {l : List Arrival} (h : l.Pairwise (·.1 ≤ ·.1)) :
    ∃ late, l = s.taken d start l ++ late ∧
      ∀ b ∈ late, s.windowEnd d start (s.taken d start l) ≤ b.1 := by
  induction l using List.reverseRecOn with
  | nil => exact ⟨[], rfl, nofun⟩
  | append_singleton l a ih =>
    obtain ⟨hl, -, hla⟩ := List.pairwise_append.mp h
    obtain ⟨late, he, hlate⟩ := ih hl
    rw [taken, List.foldl_append, List.foldl_cons, List.foldl_nil, ← taken, take]
    split
    · rename_i ha
      -- an arrival before the end has no late ones before it
      have hnil : late = [] := List.eq_nil_iff_forall_not_mem.mpr fun b hb => by
        have h1 := hlate b hb
        have h2 := hla b (he ▸ List.mem_append_right _ hb) a (List.mem_singleton_self a)
        omega
      rw [hnil, List.append_nil] at he
      exact ⟨[], by rw [← he, List.append_nil], nofun⟩
    · rename_i ha
      refine ⟨late ++ [a], ?_, fun b hb => ?_⟩
      · rw [← List.append_assoc, ← he]
      · rcases List.mem_append.mp hb with hb | hb
        · exact hlate b hb
        · exact List.mem_singleton.mp hb ▸ Nat.not_lt.mp ha

/-- What a window does not take does not move its end. -/
theorem windowEnd_taken {l : List Arrival} (h : l.Pairwise (·.1 ≤ ·.1)) :
    s.windowEnd d start (s.taken d start l) = s.windowEnd d start l := by
  obtain ⟨late, he, hlate⟩ := @taken_split s d start l h
  have hno : NoLater (s.taken d start l) late := noLater_of_pairwise (he ▸ h)
  have := windowEnd_append_of_late hno hlate
  rwa [← he, eq_comm] at this

/-- Arrivals after the end of a window are not taken. -/
theorem taken_append_of_late {l l' : List Arrival}
    (h : ∀ b ∈ l', s.windowEnd d start (s.taken d start l) ≤ b.1) :
    s.taken d start (l ++ l') = s.taken d start l := by
  have hfold : l'.foldl (s.take d start) (s.taken d start l) = s.taken d start l := by
    induction l' with
    | nil => rfl
    | cons a l' ih =>
      have ha : s.take d start (s.taken d start l) a = s.taken d start l :=
        if_neg (Nat.not_lt.mpr (h a List.mem_cons_self))
      rw [List.foldl_cons, ha]
      exact ih fun b hb => h b (List.mem_cons_of_mem _ hb)
  rw [taken, List.foldl_append, ← taken, hfold]

theorem start_le_windowEnd {l : List Arrival} (h : ∀ a ∈ l, start ≤ a.1) :
    start ≤ s.windowEnd d start l := by
  unfold windowEnd
  split
  · rename_i t ht
    obtain ⟨a, ha, rfl⟩ := List.mem_map.mp (List.mem_of_find?_eq_some ht)
    have := h a ha
    split
    · omega
    · exact Nat.le_add_right _ _
  · exact Nat.le_add_right _ _

end CaptureSetup

/-! ## The recorder at an input -/

namespace Recorder

open Timer

variable {s : CaptureSetup} {d : Directions} {start : Nat}

/-- A recorder whose capture has ended with some readings: its timer stands still and is not armed,
and has noted the end of its period. -/
structure Ended (readings : List Reading) (r : Recorder) : Prop extends Closed readings r where
  disarmed : r.timer.armed = false
  updated : r.timer.status.update = true

theorem Running.ended {seen : List Arrival} {r : Recorder} (h : Running s d start seen r)
    (hv : s.Valid) (deadline now : Nat) :
    Ended ((s.watched d).map fun c => s.readingOfHits start (s.hits seen c))
      (r.expire deadline now) :=
  ⟨h.expire hv deadline now, by rw [h.expire_eq]; rfl, by rw [h.expire_eq]; rfl⟩

/-- A trigger starts nothing while the window runs. -/
theorem Running.trigger {seen : List Arrival} {r : Recorder} (h : Running s d start seen r)
    (now : Nat) : (r.trigger now).1 = r := by
  have hnot : r.timer.trigger now = (r.timer, false) := by
    rw [Registers.trigger, Registers.counting, h.since]
    exact if_neg (by simp)
  unfold Recorder.trigger
  rw [hnot]
  rfl

/-- Nor once the capture has ended. -/
theorem Ended.trigger {readings : List Reading} {r : Recorder} (h : Ended readings r) (now : Nat) :
    (r.trigger now).1 = r := by
  have hnot : r.timer.trigger now = (r.timer, false) := by
    rw [Registers.trigger, h.disarmed]
    rfl
  unfold Recorder.trigger
  rw [hnot]
  rfl

end Recorder

/-! ## A bench that is fed -/

namespace Workbench

open Recorder Timer

/-- An input comes in now. -/
def input (w : Workbench) : CaptureInput → Workbench
  | .trigger => w.injectTrigger.1
  | .edge n e => (w.injectEdge n e).1

/-- Inputs come in, each at its instant. -/
def feed (w : Workbench) (l : List (Nat × CaptureInput)) : Workbench :=
  l.foldl (fun w x => (w.elapse x.1).input x.2) w

/-- The bench at some time, when of some inputs those up to it have come in. -/
def fedTill (w : Workbench) (l : List (Nat × CaptureInput)) (T : Nat) : Workbench :=
  (w.feed (CaptureInput.upTo T l)).elapse T

/-- A bench on which nothing is to come by itself but the end of the timer's period. -/
structure Quiet (w : Workbench) : Prop where
  sampler : w.sampler = none
  edges : w.edges = []
  messages : w.messages = []

variable {w : Workbench}

theorem input_trigger :
    w.input .trigger = { w with rig := { w.rig with recorder :=
      (w.rig.recorder.trigger w.now).1 } } := rfl

theorem input_edge (n : Nat) (e : Edge) :
    w.input (.edge n e) = { w with rig := { w.rig with recorder :=
      (match Channel.ofNat? n with
        | some c => (w.rig.recorder.edge c e w.now).1
        | none => w.rig.recorder) } } := by
  unfold input injectEdge
  simp only
  cases Channel.ofNat? n <;> rfl

/-- An input leaves the bench as it is, but for the recorder. -/
theorem Quiet.input (h : w.Quiet) (x : CaptureInput) :
    (w.input x).Quiet ∧ (w.input x).now = w.now := by
  cases x with
  | trigger => exact ⟨⟨h.sampler, h.edges, h.messages⟩, rfl⟩
  | edge n e =>
    rw [input_edge]
    exact ⟨⟨h.sampler, h.edges, h.messages⟩, rfl⟩

theorem Quiet.due_eq (h : w.Quiet) :
    w.due = w.rig.recorder.timer.expiry.map (·, .expiry) := by
  unfold due
  rw [h.edges, h.messages]
  cases w.rig.recorder.timer.expiry <;> rfl

/-- Time that goes by without the end of a period leaves the rig alone. -/
theorem Quiet.elapseFor_of_later (h : w.Quiet) {T : Nat}
    (hT : ∀ e ∈ w.rig.recorder.timer.expiry, T < e) (n : Nat) :
    elapseFor n T w = { w with now := max w.now T } := by
  cases n with
  | zero => rfl
  | succ n =>
    unfold elapseFor
    rw [h.due_eq]
    cases he : w.rig.recorder.timer.expiry with
    | none => rfl
    | some e => exact if_neg (Nat.not_le.mpr (hT e he))

/-- The period ends as time goes by, and the timer stands still from then on. -/
theorem Quiet.elapse_of_expiry (h : w.Quiet) {e T : Nat}
    (he : w.rig.recorder.timer.expiry = some e) (hT : e ≤ T)
    (hstop : (w.rig.recorder.expire e (max w.now e)).timer.since = none) :
    (w.elapse T).Quiet ∧ (w.elapse T).now = max w.now T ∧
      (w.elapse T).rig.recorder = w.rig.recorder.expire e (max w.now e) := by
  have hquiet : (w.happen e .expiry).Quiet := by
    rw [happen_expiry h.sampler]
    exact ⟨h.sampler, h.edges, h.messages⟩
  have hlater : ∀ u ∈ (w.happen e .expiry).rig.recorder.timer.expiry, T < u := fun u hu => by
    rw [happen_expiry h.sampler] at hu
    simp only [Registers.expiry, hstop] at hu
    cases hu
  have hfirst (n : Nat) : elapseFor (n + 1) T w = elapseFor n T (w.happen e .expiry) := by
    rw [elapseFor, h.due_eq, he]
    exact if_pos hT
  unfold Workbench.elapse
  rw [hfirst, hquiet.elapseFor_of_later hlater, happen_expiry h.sampler]
  exact ⟨⟨h.sampler, h.edges, h.messages⟩, by simp only; omega, rfl⟩

/-! ## Before the first trigger -/

variable {s : CaptureSetup} {d : Directions} {start : Nat}

/-- A bench whose capture is armed and was not triggered. -/
structure Waiting (s : CaptureSetup) (d : Directions) (w : Workbench) : Prop extends Quiet w where
  armed : ∃ (r₀ : Recorder) (armedAt : Nat), r₀.done.count = 0 ∧ r₀.done.limit = 1 ∧
    w.rig.recorder = r₀.arm s d armedAt

theorem Waiting.since (h : Waiting s d w) : w.rig.recorder.timer.since = none := by
  obtain ⟨r₀, armedAt, -, -, hr⟩ := h.armed
  rw [hr, arm, armTimer_eq]

theorem Waiting.elapse (h : Waiting s d w) (T : Nat) :
    Waiting s d (w.elapse T) ∧ (w.elapse T).now = max w.now T := by
  have hlater : ∀ e ∈ w.rig.recorder.timer.expiry, T < e := fun e he => by
    rw [Registers.expiry, h.since] at he
    cases he
  rw [Workbench.elapse, h.toQuiet.elapseFor_of_later hlater]
  exact ⟨⟨⟨h.sampler, h.edges, h.messages⟩, h.armed⟩, rfl⟩

/-- An edge before the trigger is lost. -/
theorem Waiting.edge (h : Waiting s d w) (n : Nat) (e : Edge) : w.input (.edge n e) = w := by
  have hnot (c : Channel) :
      w.rig.recorder.timer.edge c e w.now = (w.rig.recorder.timer, false) := by
    rw [Registers.edge, Registers.counting, h.since]
    rfl
  rw [input_edge]
  unfold Recorder.edge
  simp only [hnot]
  cases Channel.ofNat? n <;> rfl

/-! ## After it -/

/-- A bench on which the window of a capture was opened, after the arrivals that it took: the
window runs, or it has ended and each channel reads what it took. -/
structure Opened (s : CaptureSetup) (d : Directions) (start : Nat) (seen : List Arrival)
    (w : Workbench) : Prop extends Quiet w where
  stage : (Running s d start seen w.rig.recorder ∧ w.now ≤ s.windowEnd d start seen) ∨
    (Ended ((s.watched d).map fun c => s.readingOfHits start (s.hits seen c)) w.rig.recorder ∧
      s.windowEnd d start seen ≤ w.now)
  start_le : start ≤ w.now
  seen_le : ∀ a ∈ seen, a.1 ≤ w.now

/-- The first trigger opens the window. -/
theorem Waiting.opened (h : Waiting s d w) : Opened s d w.now [] (w.input .trigger) := by
  obtain ⟨r₀, armedAt, hcount, hlimit, hr⟩ := h.armed
  obtain ⟨-, hrunning⟩ := @running_trigger s d w.now r₀ hcount hlimit armedAt
  rw [← hr] at hrunning
  exact ⟨(h.toQuiet.input .trigger).1,
    .inl ⟨hrunning, CaptureSetup.start_le_windowEnd nofun⟩, Nat.le_refl _, nofun⟩

/-- As time goes by an open window ends when it is to end. -/
theorem Opened.elapse {seen : List Arrival} (h : Opened s d start seen w) (hv : s.Valid) (T : Nat) :
    Opened s d start seen (w.elapse T) ∧ (w.elapse T).now = max w.now T ∧
      (Running s d start seen (w.elapse T).rig.recorder → T < s.windowEnd d start seen) := by
  obtain ⟨hquiet, hstage, hstart, hseen⟩ := h
  have hgoesOn (hlater : ∀ e ∈ w.rig.recorder.timer.expiry, T < e) :
      w.elapse T = { w with now := max w.now T } := hquiet.elapseFor_of_later hlater _
  have hkeep {w' : Workbench} (hn : w'.now = max w.now T) :
      start ≤ w'.now ∧ ∀ a ∈ seen, a.1 ≤ w'.now := by
    rw [hn]
    exact ⟨Nat.le_trans hstart (Nat.le_max_left _ _),
      fun a ha => Nat.le_trans (hseen a ha) (Nat.le_max_left _ _)⟩
  rcases hstage with ⟨hrun, hnow⟩ | ⟨hend, hnow⟩
  · by_cases hT : s.windowEnd d start seen ≤ T
    · obtain ⟨hq, hn, hr⟩ :=
        hquiet.elapse_of_expiry hrun.expiry_eq hT (hrun.ended hv _ _).since
      refine ⟨⟨hq, .inr ⟨hr ▸ hrun.ended hv _ _, ?_⟩, (hkeep hn).1, (hkeep hn).2⟩, hn, fun h0 => ?_⟩
      · rw [hn]
        exact Nat.le_trans hT (Nat.le_max_right _ _)
      · -- a window that has ended does not run
        have h1 := (hrun.ended hv (s.windowEnd d start seen)
          (max w.now (s.windowEnd d start seen))).since
        rw [← hr, h0.since] at h1
        cases h1
    · have hT := Nat.not_le.mp hT
      rw [hgoesOn fun e he => by rw [hrun.expiry_eq] at he; cases he; exact hT]
      exact ⟨⟨⟨hquiet.sampler, hquiet.edges, hquiet.messages⟩,
        .inl ⟨hrun, Nat.max_le.mpr ⟨hnow, Nat.le_of_lt hT⟩⟩, (hkeep rfl).1, (hkeep rfl).2⟩,
        rfl, fun _ => hT⟩
  · rw [hgoesOn fun e he => by rw [Registers.expiry, hend.since] at he; cases he]
    refine ⟨⟨⟨hquiet.sampler, hquiet.edges, hquiet.messages⟩,
      .inr ⟨hend, Nat.le_trans hnow (Nat.le_max_left _ _)⟩, (hkeep rfl).1, (hkeep rfl).2⟩,
      rfl, fun h0 => ?_⟩
    have h1 := hend.since
    rw [h0.since] at h1
    cases h1

/-- A later trigger changes nothing. -/
theorem Opened.trigger {seen : List Arrival} (h : Opened s d start seen w) :
    Opened s d start seen (w.input .trigger) := by
  have hsame : (w.rig.recorder.trigger w.now).1 = w.rig.recorder := by
    rcases h.stage with ⟨hrun, -⟩ | ⟨hend, -⟩
    · exact hrun.trigger _
    · exact hend.trigger _
  rw [input_trigger, hsame]
  exact h

/-- An edge is taken if the window has not ended. -/
theorem Opened.edge {seen : List Arrival} (h : Opened s d start seen w) (hv : s.Valid)
    (hlt : Running s d start seen w.rig.recorder → w.now < s.windowEnd d start seen)
    (n : Nat) (e : Edge) :
    Opened s d start (s.take d start seen (w.now, n, e)) (w.input (.edge n e)) := by
  obtain ⟨hquiet, hn⟩ := h.toQuiet.input (.edge n e)
  unfold CaptureSetup.take
  rcases h.stage with ⟨hrun, hnow⟩ | ⟨hend, hnow⟩
  · have hlast : NoLater seen [(w.now, n, e)] := fun a ha b hb => by
      rw [List.mem_singleton.mp hb]
      exact h.seen_le a ha
    have hin := CaptureSetup.le_windowEnd_append_singleton (s := s) (d := d) hlast hnow
    rw [if_pos (hlt hrun)]
    refine ⟨hquiet, .inl ⟨?_, ?_⟩, hn ▸ h.start_le, fun a ha => ?_⟩
    · rw [input_edge]
      exact hrun.arrive hv hlast h.start_le hnow
    · rw [hn]
      exact hin _ (List.mem_append_right _ (List.mem_singleton_self _))
    · rw [hn]
      rcases List.mem_append.mp ha with ha | ha
      · exact h.seen_le a ha
      · rw [List.mem_singleton.mp ha]
  · have hsame : (w.input (.edge n e)).rig.recorder = w.rig.recorder := by
      rw [input_edge]
      cases Channel.ofNat? n with
      | none => rfl
      | some c => exact hend.edge c e w.now
    rw [if_neg (Nat.not_lt.mpr hnow)]
    exact ⟨hquiet, .inr ⟨hsame ▸ hend, hn ▸ hnow⟩, hn ▸ h.start_le, fun a ha => hn ▸ h.seen_le a ha⟩

/-- What comes in after some time finds an open window as it is then. -/
theorem Opened.arrive {seen : List Arrival} (h : Opened s d start seen w) (hv : s.Valid)
    {x : Nat × CaptureInput} (hx : w.now ≤ x.1) :
    Opened s d start ((CaptureInput.arrivals [x]).foldl (s.take d start) seen)
        ((w.elapse x.1).input x.2) ∧
      ((w.elapse x.1).input x.2).now = x.1 := by
  obtain ⟨hlater, hn, hlt⟩ := h.elapse hv x.1
  rw [Nat.max_eq_right hx] at hn
  refine ⟨?_, ((hlater.toQuiet.input x.2).2).trans hn⟩
  obtain ⟨t, _ | ⟨n, e⟩⟩ := x
  · exact hlater.trigger
  · have hedge := hlater.edge hv (fun hr => by rw [hn]; exact hlt hr) n e
    rw [hn] at hedge
    exact hedge

/-- Inputs in order find an open window as it is at their instants. -/
theorem Opened.feed {seen : List Arrival} (h : Opened s d start seen w) (hv : s.Valid)
    {l : List (Nat × CaptureInput)} (hl : l.Pairwise (·.1 ≤ ·.1)) (hlater : ∀ x ∈ l, w.now ≤ x.1)
    {T : Nat} (hnow : w.now ≤ T) (hT : ∀ x ∈ l, x.1 ≤ T) :
    Opened s d start ((CaptureInput.arrivals l).foldl (s.take d start) seen) (w.feed l) ∧
      (w.feed l).now ≤ T := by
  induction l generalizing w seen with
  | nil => exact ⟨h, hnow⟩
  | cons x l ih =>
    obtain ⟨hx, hl⟩ := List.pairwise_cons.mp hl
    obtain ⟨hafter, hn⟩ := h.arrive hv (hlater x List.mem_cons_self)
    rw [← List.singleton_append, CaptureInput.arrivals_append, List.foldl_append]
    exact ih hafter hl (fun y hy => by rw [hn]; exact hx y hy)
      (by rw [hn]; exact hT x List.mem_cons_self) (fun y hy => hT y (List.mem_cons_of_mem _ hy))

/-- **Where a capture stands after all inputs so far**: it waits for the first trigger, or that has
opened its window, which took what came before its end. -/
theorem opened_feed (h : Waiting s d w) (hv : s.Valid) {l : List (Nat × CaptureInput)}
    (hl : l.Pairwise (·.1 ≤ ·.1)) (hlater : ∀ x ∈ l, w.now ≤ x.1) {T : Nat} (hnow : w.now ≤ T)
    (hT : ∀ x ∈ l, x.1 ≤ T) :
    (match CaptureInput.opening? l with
      | none => Waiting s d (w.feed l)
      | some (start, arrivals) => Opened s d start (s.taken d start arrivals) (w.feed l)) ∧
    (w.feed l).now ≤ T := by
  induction l generalizing w with
  | nil => exact ⟨h, hnow⟩
  | cons x l ih =>
    obtain ⟨hx, hrestOrder⟩ := List.pairwise_cons.mp hl
    obtain ⟨hafter, hn⟩ := h.elapse x.1
    rw [Nat.max_eq_right (hlater x List.mem_cons_self)] at hn
    have hthen : ∀ y ∈ l, (w.elapse x.1).now ≤ y.1 := fun y hy => by
      rw [hn]
      exact hx y hy
    have hsoon : (w.elapse x.1).now ≤ T := by
      rw [hn]
      exact hT x List.mem_cons_self
    have hrest : ∀ y ∈ l, y.1 ≤ T := fun y hy => hT y (List.mem_cons_of_mem _ hy)
    obtain ⟨t, _ | ⟨n, e⟩⟩ := x
    · have hopen := hafter.opened
      rw [hn] at hopen
      exact hopen.feed hv hrestOrder hthen hsoon hrest
    · have hsame : w.feed ((t, .edge n e) :: l) = (w.elapse t).feed l := by
        rw [feed, List.foldl_cons, hafter.edge]
        rfl
      rw [hsame]
      exact ih hafter hrestOrder hthen hsoon hrest

/-! ## At any time -/

/-- A capture that was started waits for its trigger. -/
theorem waiting_of_start? {t : Recorder.Crowd.Trace} {c : Recorder.Crowd}
    (hc : Recorder.Crowd.Reaches t c) {armedAt : Nat}
    (hr : c.recorder.start? s d armedAt = some w.rig.recorder) (hq : w.Quiet) : Waiting s d w := by
  obtain ⟨r₀, h1, h2, h3⟩ := done_of_start? hc hr
  exact ⟨hq, r₀, armedAt, h2, h3, h1⟩

/-- **What a capture has come to at any time**: from the end of its window on it has ended with
what the window took, and before that it waits or its window runs. -/
theorem recorder_at (h : Waiting s d w) (hv : s.Valid) {l : List (Nat × CaptureInput)}
    (hl : l.Pairwise (·.1 ≤ ·.1)) (hlater : ∀ x ∈ l, w.now ≤ x.1) {arrivals : List Arrival}
    (ho : CaptureInput.opening? l = some (start, arrivals)) {T : Nat} (hT : w.now ≤ T) :
    (s.windowEnd d start arrivals ≤ T →
      Ended ((s.watched d).map fun c => s.readingOfHits start (s.hits (s.taken d start arrivals) c))
        (w.fedTill l T).rig.recorder) ∧
    (T < s.windowEnd d start arrivals →
      Waiting s d (w.fedTill l T) ∨
        ∃ seen, Running s d start seen (w.fedTill l T).rig.recorder) := by
  obtain ⟨later, he, hle, hlt⟩ := @CaptureInput.upTo_append T l hl
  obtain ⟨-, hfrom, hsorted⟩ := CaptureInput.opening?_order hl ho
  rw [he, List.pairwise_append] at hl
  obtain ⟨hfed, hnow⟩ := opened_feed h hv hl.1
    (fun x hx => hlater x (he ▸ List.mem_append_left _ hx)) hT hle
  rw [he, CaptureInput.opening?_append] at ho
  unfold fedTill
  have hafter : ∀ b ∈ CaptureInput.arrivals later, T < b.1 := fun b hb => by
    obtain ⟨x, hx, he⟩ := CaptureInput.exists_mem_of_mem_arrivals hb
    exact he ▸ hlt x hx
  cases hopen : CaptureInput.opening? (CaptureInput.upTo T l) with
  | none =>
    -- the trigger is yet to come
    rw [hopen] at hfed ho
    obtain ⟨⟨x, hx, hxs⟩, -⟩ := CaptureInput.opening?_order hl.2.1 ho
    have hlong := CaptureSetup.start_le_windowEnd (s := s) (d := d) hfrom
    have := hlt x hx
    exact ⟨fun h0 => by omega, fun _ => .inl (hfed.elapse T).1⟩
  | some p =>
    obtain ⟨first, seen⟩ := p
    rw [hopen] at hfed ho
    cases ho
    obtain ⟨hat, hn, hrun⟩ := hfed.elapse hv T
    rw [Nat.max_eq_right hnow] at hn
    have hseen := (List.pairwise_append.mp hsorted).1
    have hno := noLater_of_pairwise hsorted
    rw [CaptureSetup.windowEnd_taken hseen] at hrun
    rcases hat.stage with ⟨hr, hlast⟩ | ⟨hend, hlast⟩
    · have hlong := CaptureSetup.lt_windowEnd_append hno (hrun hr) hafter
      exact ⟨fun h0 => absurd hlong (Nat.not_lt.mpr h0), fun _ => .inr ⟨_, hr⟩⟩
    · rw [hn, CaptureSetup.windowEnd_taken hseen] at hlast
      have hlate : ∀ b ∈ CaptureInput.arrivals later, s.windowEnd d start seen ≤ b.1 :=
        fun b hb => Nat.le_trans hlast (Nat.le_of_lt (hafter b hb))
      rw [CaptureSetup.windowEnd_append_of_late hno hlate, CaptureSetup.taken_append_of_late
        (by rw [CaptureSetup.windowEnd_taken hseen]; exact hlate)]
      exact ⟨fun _ => hend, fun h0 => absurd hlast (Nat.not_le.mpr h0)⟩

end Workbench

end SwitchBench
