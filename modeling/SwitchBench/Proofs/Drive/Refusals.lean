import SwitchBench.Proofs.Drive.Beat

/-!
# Refused orders

An order is refused in two ways. An absolute one that names no position is refused before the call
does anything (`Crowd.order`). A relative one that leads out of the range of positions is refused in
the middle of its call, when the call has the permit and looks at the position, and it gives the
permit back before it fails.

`Crowd.Meanwhile` watches one call: it gives its place on the roster, and what everybody else did
since the call began, numbered as if there was no such call. `Crowd.Unseen` relates a state with the
call to one without it: as long as the order is not accepted, the two differ by the permit at most.

Results: `Unseen.other` and `Unseen.own` (what one action does to the relation),
`unseen_of_meanwhile` (what everybody else does is a run of its own, to the state without the call),
and `refused_move_leaves_no_trace`.
-/

namespace SwitchBench

/-! ## One entry more -/

section

variable {α : Type} {i j : Nat} {k x : α} {l m : List α}

/-- Is a roster another one with one more entry, at a place? -/
def Inserted (i : Nat) (k : α) (l m : List α) : Prop :=
  ∃ before after, before.length = i ∧ l = before ++ k :: after ∧ m = before ++ after

/-- The number of an entry when the one at a place is not counted. -/
def numberBeside (i j : Nat) : Nat := if j < i then j else j - 1

theorem inserted_of_getElem? (h : l[i]? = some k) : Inserted i k l (putAt l i none) := by
  have hi := (List.getElem?_eq_some_iff.mp h).1
  refine ⟨l.take i, l.drop (i + 1), ?_, eq_take_append_drop_of_getElem? h, ?_⟩
  · rw [List.length_take]
    omega
  · simp [putAt]

namespace Inserted

theorem getElem?_eq (h : Inserted i k l m) : l[i]? = some k := by
  obtain ⟨before, after, rfl, rfl, rfl⟩ := h
  simp

theorem putAt_none (h : Inserted i k l m) : putAt l i none = m := by
  obtain ⟨before, after, rfl, rfl, rfl⟩ := h
  simp [putAt]

theorem putAt_some (h : Inserted i k l m) (k' : α) : Inserted i k' (putAt l i (some k')) m := by
  obtain ⟨before, after, rfl, rfl, rfl⟩ := h
  exact ⟨before, after, rfl, by simp [putAt], rfl⟩

theorem append (h : Inserted i k l m) (n : List α) : Inserted i k (l ++ n) (m ++ n) := by
  obtain ⟨before, after, rfl, rfl, rfl⟩ := h
  exact ⟨before, after ++ n, rfl, by simp, by simp⟩

theorem countP_eq (h : Inserted i k l m) (p : α → Bool) :
    l.countP p = m.countP p + (p k).toNat := by
  obtain ⟨before, after, rfl, rfl, rfl⟩ := h
  rw [List.countP_append, List.countP_append, List.countP_cons]
  cases p k <;> simp
  omega

theorem length_eq (h : Inserted i k l m) : l.length = m.length + 1 := by
  obtain ⟨before, after, rfl, rfl, rfl⟩ := h
  simp only [List.length_append, List.length_cons]
  omega

/-- Any other entry is on both rosters. -/
theorem getElem?_beside (h : Inserted i k l m) (hj : j ≠ i) : m[numberBeside i j]? = l[j]? := by
  obtain ⟨before, after, rfl, rfl, rfl⟩ := h
  unfold numberBeside
  split <;> rename_i hlt
  · rw [List.getElem?_append_left hlt, List.getElem?_append_left hlt]
  · obtain ⟨n, rfl⟩ : ∃ n, j = before.length + n + 1 := ⟨j - before.length - 1, by omega⟩
    rw [List.getElem?_append_right (by omega), List.getElem?_append_right (by omega)]
    rw [show before.length + n + 1 - 1 - before.length = n by omega,
      show before.length + n + 1 - before.length = n + 1 by omega, List.getElem?_cons_succ]

/-- Another entry is replaced, or taken out, on both rosters; if it is taken out before the one
that only one of them has, that one moves up. -/
theorem putAt_beside (h : Inserted i k l m) (hj : j ≠ i) (hx : l[j]? = some x) (a : Option α) :
    Inserted (if j < i ∧ a = none then i - 1 else i) k (putAt l j a)
      (putAt m (numberBeside i j) a) := by
  obtain ⟨before, after, rfl, rfl, rfl⟩ := h
  unfold numberBeside
  by_cases hlt : j < before.length
  · rw [if_pos hlt, putAt_append_left hlt, putAt_append_left hlt]
    refine ⟨putAt before j a, after, ?_, rfl, rfl⟩
    have hlength := length_putAt hlt a
    cases a <;> simp [hlt] at hlength ⊢ <;> omega
  · obtain ⟨n, rfl⟩ : ∃ n, j = before.length + n + 1 := ⟨j - before.length - 1, by omega⟩
    refine ⟨before, putAt after n a, by simp [hlt], ?_, ?_⟩
    · rw [Nat.add_assoc, putAt_append]
      simp [putAt]
    · rw [if_neg hlt, Nat.add_sub_cancel, putAt_append]

end Inserted

end

theorem Position.not_valid_iff {n : Int} :
    ¬ Position.Valid n ↔ ¬ Position.IsWord n ∨ n = Position.nowhere := by
  unfold Position.Valid Position.IsWord Position.nowhere Position.top Position.bottom
  omega

/-! ## A call that is watched -/

/-- Is a call past the point where its order could have been refused? -/
def MoveCall.accepted : MoveCall → Bool
  | announcing (.began _) | announcing (.finished _) => true
  | _ => false

theorem Semaphore.give_of_take? {s s' : Semaphore} (h : s.take? = some s') : s'.give = s := by
  obtain ⟨n, limit, hpos, hle⟩ := s
  simp only [take?, Option.ite_none_left_eq_some, Option.some.injEq] at h
  obtain ⟨hn, rfl⟩ := h
  have hlt : n - 1 < limit := by omega
  simp only [give, hlt, dif_pos, mk.injEq, and_true]
  omega

namespace Drive

/-- Taking the permit changes nothing else. -/
theorem takePermit?_eq {d d' : Drive} (h : d.takePermit? = some d') :
    d' = { d with available := d'.available } ∧ d'.givePermit = d ∧
      d.available.count = d'.available.count + 1 := by
  obtain ⟨s, hs, rfl⟩ := Option.map_eq_some_iff.mp h
  exact ⟨rfl, by simp only [givePermit, Semaphore.give_of_take? hs], Semaphore.count_of_take? hs⟩

/-- Whatever happens to the axis meanwhile, the permit can be taken. -/
theorem takePermit?_withAxis {d d' : Drive} (h : d.takePermit? = some d') (a : Axis) :
    { d with axis := a }.takePermit? = some { d' with axis := a } := by
  obtain ⟨s, hs, rfl⟩ := Option.map_eq_some_iff.mp h
  simp only [takePermit?, hs, Option.map_some]

/-- An action as it is numbered without the call at a place; `none` if it is that call's own. -/
def Action.beside? (i : Nat) : Action → Option Action
  | .proceed j => if j = i then none else some (.proceed (numberBeside i j))
  | .giveUp j => if j = i then none else some (.giveUp (numberBeside i j))
  | a => some a

namespace Crowd

/-- A client calls for a move: its call joins the others, unless the order is refused at once. -/
def order (c : Crowd) (o : MoveOrder) : Except Fault Crowd :=
  (admits o).map fun _ => { c with calls := c.calls ++ [.takingPermit o] }

/-- The place of a call after an action of somebody else: it moves up if one before it leaves. -/
def placeAfter (c c' : Crowd) (i : Nat) : Action → Nat
  | .proceed j | .giveUp j => if j < i ∧ c'.calls.length < c.calls.length then i - 1 else i
  | _ => i

/-- A run in which a call for a move has begun and not returned: what everybody else did since,
newest first, and the place of the call. -/
inductive Meanwhile (o : MoveOrder) (c₀ : Crowd) : List Action → Nat → Crowd → Prop
  | call {c : Crowd} (h : c₀.order o = .ok c) : Meanwhile o c₀ [] c₀.calls.length c
  | own {as : List Action} {i : Nat} {c c' : Crowd} (h : Meanwhile o c₀ as i c)
      (ha : c.act? (.proceed i) = some c') (hl : c'.calls.length = c.calls.length) :
      Meanwhile o c₀ as i c'
  | other {as : List Action} {i : Nat} {c c' : Crowd} {a b : Action} (h : Meanwhile o c₀ as i c)
      (ha : c.act? a = some c') (hb : a.beside? i = some b) :
      Meanwhile o c₀ (b :: as) (placeAfter c c' i a) c'

/-- Does a call differ from none at all by the permit it may have? -/
inductive Unseen (o : MoveOrder) (d : Drive) : Drive → MoveCall → Prop
  | waiting {d' : Drive} (h : d' = d) : Unseen o d d' (.takingPermit o)
  | looking {d' : Drive} (h : d.takePermit? = some d') : Unseen o d d' (.launching o)
  | refused {d' : Drive} {f : Fault} (h : d.takePermit? = some d') :
      Unseen o d d' (.announcing (.refused f))

variable {o : MoveOrder} {c c' w : Crowd} {k x : MoveCall} {a b : Action} {i j : Nat}
  {g : MoveStage} {d d' : Drive}

theorem order_eq_ok_iff : c.order o = .ok c' ↔ c.act? (.enter (.takingPermit o)) = some c' := by
  unfold order admits
  split <;> rename_i h <;> simp [act?, MoveCall.opens, admits, h, Except.map, Except.isOk,
    Except.toBool]

/-- Another call that acts, or gives up, does so on the roster without the watched one. -/
theorem inserted_putAt {m : List MoveCall} (hi : Inserted i k c.calls m) (hj : j ≠ i)
    (hx : c.calls[j]? = some x) (next : Option MoveCall) :
    Inserted (if j < i ∧ (putAt c.calls j next).length < c.calls.length then i - 1 else i) k
      (putAt c.calls j next) (putAt m (numberBeside i j) next) := by
  have hlength := length_putAt (List.getElem?_eq_some_iff.mp hx).1 next
  have h := hi.putAt_beside hj hx next
  cases next <;> simp at hlength h ⊢
  · rwa [if_congr (and_iff_left (by omega)) rfl rfl]
  · rwa [if_neg (by omega)]

/-- Whatever somebody else does, the watched call stands where it stood. -/
theorem inserted_of_act {m : List MoveCall} (hi : Inserted i k c.calls m)
    (ha : c.act? a = some c') (hb : a.beside? i = some b) :
    ∃ m', Inserted (placeAfter c c' i a) k c'.calls m' := by
  cases a with
  | stepper r | powerOn | powerOff | abort | locate =>
    cases ha
    exact ⟨m, hi⟩
  | enter x =>
    obtain ⟨-, rfl⟩ := enter_of_act ha
    exact ⟨_, hi.append _⟩
  | proceed j =>
    simp only [Action.beside?, Option.ite_none_left_eq_some] at hb
    obtain ⟨x, d, next, hx, -, rfl⟩ := proceed_of_act ha
    exact ⟨_, inserted_putAt hi hb.1 hx next⟩
  | giveUp j =>
    simp only [Action.beside?, Option.ite_none_left_eq_some] at hb
    obtain ⟨_, hx, -, rfl⟩ := giveUp_of_act ha
    exact ⟨_, inserted_putAt hi hb.1 hx none⟩

/-! ## One action -/

theorem Unseen.eq_of_not_holds (h : Unseen o d d' k) (hk : k.holds = false) :
    d' = d ∧ k = .takingPermit o := by
  cases h with
  | waiting h => exact ⟨h, rfl⟩
  | looking h | refused h => cases hk

theorem Unseen.takePermit?_of_holds (h : Unseen o d d' k) (hk : k.holds = true) :
    d.takePermit? = some d' := by
  cases h with
  | waiting h => cases hk
  | looking h | refused h => exact h

theorem Unseen.withAxis (h : Unseen o d d' k) (a : Axis) :
    Unseen o { d with axis := a } { d' with axis := a } k := by
  cases h with
  | waiting h => exact .waiting (by rw [h])
  | looking h => exact .looking (takePermit?_withAxis h a)
  | refused h => exact .refused (takePermit?_withAxis h a)

theorem Unseen.axis (h : Unseen o d d' k) : d'.axis = d.axis := by
  cases h with
  | waiting h => rw [h]
  | looking h | refused h => rw [(takePermit?_eq h).1]

/-- With the permit in the watched call, nothing waits for the stepper, and nobody else can act but
one who gives up. -/
theorem Sound.stuck (hs : Sound g c) {m : List MoveCall} (hi : Inserted i k c.calls m)
    (hk : k.holds = true) :
    (∀ r, c.drive.heeds r = false) ∧ ∀ x ∈ m, x.step? c.drive = none := by
  obtain ⟨h1, h2, h3, h4, h5⟩ := hs.only hi.getElem?_eq hk
  refine ⟨fun r => ?_, fun x hx => ?_⟩
  · cases r <;> simp [heeds, demand, h4, Semaphore.ready, h3]
  · rw [hi.countP_eq, hk, Bool.toNat_true, Nat.add_eq_right] at h2
    have hx := eq_zero_of_mem_countP h2 hx
    cases x with
    | takingPermit o => simp [MoveCall.step?, takePermit?, Semaphore.take?_eq_none_iff.mpr h1]
    | takingEnd p => simp [MoveCall.step?, takeDone?, Semaphore.take?_eq_none_iff.mpr h5]
    | _ => cases hx

/-- **Whatever somebody else does, he could do without the watched call**, and it makes no other
difference afterwards. -/
theorem Unseen.other (hu : Unseen o w.drive c.drive k) (hs : Sound g c)
    (hi : Inserted i k c.calls w.calls) (ha : c.act? a = some c') (hb : a.beside? i = some b) :
    ∃ w', w.act? b = some w' ∧ Unseen o w'.drive c'.drive k ∧
      Inserted (placeAfter c c' i a) k c'.calls w'.calls := by
  cases a with
  | stepper r =>
    cases ha
    cases hb
    refine ⟨_, rfl, ?_, hi⟩
    cases hk : k.holds with
    | true =>
      have hc := (hs.stuck hi hk).1 r
      have hw : w.drive.heeds r = false := by
        rwa [(takePermit?_eq (hu.takePermit?_of_holds hk)).1] at hc
      simpa only [resume_of_not_heeds hc, resume_of_not_heeds hw] using hu
    | false =>
      obtain ⟨hd, rfl⟩ := hu.eq_of_not_holds hk
      exact .waiting (by rw [hd])
  | powerOn =>
    cases ha
    cases hb
    exact ⟨_, rfl, by simpa only [Drive.powerOn, hu.axis] using hu.withAxis _, hi⟩
  | powerOff =>
    cases ha
    cases hb
    exact ⟨_, rfl, by simpa only [Drive.powerOff, hu.axis] using hu.withAxis _, hi⟩
  | abort =>
    cases ha
    cases hb
    exact ⟨_, rfl, by simpa only [Drive.abort, hu.axis] using hu.withAxis _, hi⟩
  | locate =>
    cases ha
    cases hb
    exact ⟨_, rfl, hu, hi⟩
  | enter x =>
    obtain ⟨hx, rfl⟩ := enter_of_act ha
    cases hb
    exact ⟨⟨w.drive, w.calls ++ [x]⟩, by simp [act?, hx], hu, hi.append _⟩
  | proceed j =>
    simp only [Action.beside?, Option.ite_none_left_eq_some, Option.some.injEq] at hb
    obtain ⟨hj, rfl⟩ := hb
    obtain ⟨x, d, next, hx, hstep, rfl⟩ := proceed_of_act ha
    have hw := (hi.getElem?_beside hj).trans hx
    cases hk : k.holds with
    | true =>
      rw [(hs.stuck hi hk).2 x (List.mem_of_getElem? hw)] at hstep
      cases hstep
    | false =>
      obtain ⟨hd, rfl⟩ := hu.eq_of_not_holds hk
      refine ⟨⟨d, putAt w.calls (numberBeside i j) next⟩, ?_, .waiting rfl,
        inserted_putAt hi hj hx next⟩
      simp [act?, hw, ← hd, hstep]
  | giveUp j =>
    simp only [Action.beside?, Option.ite_none_left_eq_some, Option.some.injEq] at hb
    obtain ⟨hj, rfl⟩ := hb
    obtain ⟨p, hx, hp, rfl⟩ := giveUp_of_act ha
    have hw := (hi.getElem?_beside hj).trans hx
    have hdone : c.drive.done = w.drive.done := by
      cases hu with
      | waiting h => rw [h]
      | looking h | refused h => rw [(takePermit?_eq h).1]
    refine ⟨⟨w.drive, putAt w.calls (numberBeside i j) none⟩, ?_, hu,
      inserted_putAt hi hj hx none⟩
    simp [act?, hw, ← hdone, hp]

/-- What becomes of a call at its launching. -/
theorem launching_cases (hi : c.calls[i]? = some (.launching o))
    (ha : c.act? (.proceed i) = some c') :
    c' = ⟨(c.drive.launch o).1, putAt c.calls i (some (.announcing (c.drive.launch o).2))⟩ := by
  simpa [act?, hi, MoveCall.step?, eq_comm] using ha

/-- **What the watched call does itself.** Its order is accepted, or it makes no difference but by
the permit; and when it is over, none at all. -/
theorem Unseen.own (hu : Unseen o w.drive c.drive k) (hi : Inserted i k c.calls w.calls)
    (ha : c.act? (.proceed i) = some c') :
    (∃ k', Inserted i k' c'.calls w.calls ∧
      (k'.accepted = true ∨ Unseen o w.drive c'.drive k')) ∨ c' = w := by
  have hx := hi.getElem?_eq
  cases hu with
  | waiting hd' =>
    simp only [act?, hx, hd', MoveCall.step?, Option.bind_eq_bind, Option.bind_some, Option.pure_def,
      Option.bind_eq_some_iff, Option.map_eq_some_iff, Option.some.injEq] at ha
    obtain ⟨-, ⟨d, hd, rfl⟩, rfl⟩ := ha
    exact .inl ⟨_, hi.putAt_some _, .inr (.looking hd)⟩
  | looking h =>
    rw [launching_cases hx ha]
    refine .inl ⟨_, hi.putAt_some _, ?_⟩
    simp only [launch]
    rcases c.drive.axis.launch_cases o with
      ⟨-, he⟩ | ⟨-, -, he⟩ | ⟨-, -, he⟩ | ⟨-, t, -, -, he⟩ <;> rw [he]
    · exact .inl rfl
    · exact .inr (.refused h)
    · exact .inl rfl
    · exact .inl rfl
  | refused h =>
    refine .inr ?_
    simp only [act?, hx, MoveCall.step?, announce, Option.bind_eq_bind, Option.bind_some,
      Option.pure_def, Option.some.injEq, hi.putAt_none] at ha
    rw [← ha, ← givePermit, (takePermit?_eq h).2.1]

/-! ## A run -/

/-- A run with the call in it is a run. -/
theorem reaches_of_meanwhile {p : StepPeriods} {rate : Nat} {t : Trace} {c₀ : Crowd}
    {as : List Action} (h : Reaches p rate t c₀) (hm : Meanwhile o c₀ as i c) :
    ∃ u, Reaches p rate u c := by
  induction hm with
  | call hc => exact ⟨_, .act h (order_eq_ok_iff.mp hc)⟩
  | own _ ha _ ih | other _ ha _ ih =>
    obtain ⟨u, hu⟩ := ih
    exact ⟨_, .act hu ha⟩

/-- **What everybody else does is a run of its own**, to a state that the call, until its order is
accepted, differs from by no more than the permit. -/
theorem unseen_of_meanwhile {p : StepPeriods} {rate : Nat} {t : Trace} {c₀ : Crowd}
    {as : List Action} (h : Reaches p rate t c₀) (hm : Meanwhile o c₀ as i c) :
    ∃ k m, Inserted i k c.calls m ∧ (k.accepted = true ∨
      ∃ u w, play? act? t c₀ as.reverse = some (u, w) ∧ w.calls = m ∧
        Unseen o w.drive c.drive k) := by
  induction hm with
  | call hc =>
    have hc := order_eq_ok_iff.mp hc
    simp only [act?, Option.ite_none_right_eq_some, Option.some.injEq] at hc
    obtain ⟨-, rfl⟩ := hc
    exact ⟨.takingPermit o, c₀.calls, ⟨c₀.calls, [], rfl, rfl, by simp⟩,
      .inr ⟨t, c₀, rfl, rfl, .waiting rfl⟩⟩
  | @own as i c c' hm ha hl ih =>
    obtain ⟨k, m, hi, hk | ⟨u, w, hp, rfl, hu⟩⟩ := ih
    · -- an accepted call returns, and so is not on the roster any more
      have hx := hi.getElem?_eq
      cases k with
      | announcing l =>
        simp only [act?, hx, MoveCall.step?, Option.bind_eq_bind, Option.bind_some,
          Option.pure_def, Option.some.injEq] at ha
        have := length_putAt (List.getElem?_eq_some_iff.mp hx).1 none
        rw [← ha] at hl
        simp at hl this
        omega
      | _ => cases hk
    · rcases hu.own hi ha with ⟨k', hi', hk' | hu'⟩ | rfl
      · exact ⟨k', _, hi', .inl hk'⟩
      · exact ⟨k', _, hi', .inr ⟨u, w, hp, rfl, hu'⟩⟩
      · have := hi.length_eq
        omega
  | @other as i c c' a b hm ha hb ih =>
    obtain ⟨k, m, hi, hk | ⟨u, w, hp, rfl, hu⟩⟩ := ih
    · obtain ⟨m', hi'⟩ := inserted_of_act hi ha hb
      exact ⟨k, m', hi', .inl hk⟩
    · obtain ⟨v, hv⟩ := reaches_of_meanwhile h hm
      obtain ⟨w', hw', hu', hi'⟩ := hu.other (sound_of_reaches hv) hi ha hb
      refine ⟨k, _, hi', .inr ⟨(w, b) :: u, w', ?_, rfl, hu'⟩⟩
      rw [List.reverse_cons, play?_append, hp]
      simp [play?, hw']

/-! ## What is refused, and what is left of it -/

/-- Orders are refused at once if they are to go nowhere. -/
theorem order_eq_error_iff (ho : Position.IsWord o.steps) {f : Fault} :
    c.order o = .error f ↔
      o.relative = false ∧ o.steps = Position.nowhere ∧ f = .moveTarget o.steps := by
  have hv := Position.valid_iff_of_isWord ho
  unfold order admits
  split <;> rename_i h
  · simp only [Except.map, reduceCtorEq, false_iff, not_and]
    intro hr hn
    rw [hr, hv] at h
    exact absurd hn (h.resolve_left Bool.false_ne_true)
  · rw [not_or, Bool.not_eq_true, hv, not_not] at h
    simp [Except.map, h, eq_comm]

/-- An order is refused on the way if it is relative, the power is on, and it leads to no
position. -/
theorem launch_eq_refused_iff (d : Drive) (o : MoveOrder) (f : Fault) :
    (d.launch o).2 = .refused f ↔
      d.axis.isOff = false ∧ o.relative = true ∧
        (¬ Position.IsWord (d.axis.position + o.steps) ∨
          d.axis.position + o.steps = Position.nowhere) ∧
        f = .moveLeavesRange o.steps d.axis.position := by
  rw [← Position.not_valid_iff]
  have hd : d.axis.destination? o = none ↔
      o.relative = true ∧ ¬ Position.Valid (d.axis.position + o.steps) := by
    unfold Axis.destination?
    split <;> rename_i hr <;> simp [hr]
  simp only [launch]
  rcases d.axis.launch_cases o with ⟨h1, he⟩ | ⟨h1, h2, he⟩ | ⟨h1, h2, he⟩ | ⟨h1, t, h2, -, he⟩ <;>
    rw [he]
  · simp [h1]
  · obtain ⟨h3, h4⟩ := hd.mp h2
    simp [h1, h3, h4, eq_comm]
  all_goals
    have h3 := mt hd.mpr (by rw [h2]; exact Option.some_ne_none _)
    simp only [reduceCtorEq, false_iff]
    exact fun h => h3 ⟨h.2.1, h.2.2.1⟩

/-- What a call at a place, whose order is not accepted, differs by from none at all: everybody
else's actions make a run of their own, to a state that has the same roster but for the call, and
the same drive but for the permit if the call has it. A call that fails leaves just that state. -/
structure LeavesNoTrace (o : MoveOrder) (t : Trace) (c₀ : Crowd) (as : List Action) (i : Nat)
    (c : Crowd) (k : MoveCall) (u : Trace) (w : Crowd) : Prop where
  run : play? act? t c₀ as.reverse = some (u, w)
  calls : w.calls = putAt c.calls i none
  drive : c.drive = { w.drive with available := c.drive.available }
  permit : c.drive.available.count + k.holds.toNat = w.drive.available.count
  kind : k = .takingPermit o ∨ k = .launching o ∨ ∃ f, k = .announcing (.refused f)
  returns : ∀ f, k = .announcing (.refused f) → c.act? (.proceed i) = some w

theorem Unseen.leavesNoTrace {t u : Trace} {c₀ : Crowd} {as : List Action}
    (hu : Unseen o w.drive c.drive k) (hi : Inserted i k c.calls w.calls)
    (hp : play? act? t c₀ as.reverse = some (u, w)) : LeavesNoTrace o t c₀ as i c k u w := by
  refine ⟨hp, hi.putAt_none.symm, ?_, ?_, ?_, ?_⟩
  · cases hu with
    | waiting h => rw [h]
    | looking h | refused h => exact (takePermit?_eq h).1
  · cases hu with
    | waiting h => rw [h]; rfl
    | looking h | refused h => exact (takePermit?_eq h).2.2.symm
  · cases hu with
    | waiting h => exact .inl rfl
    | looking h => exact .inr (.inl rfl)
    | refused h => exact .inr (.inr ⟨_, rfl⟩)
  · rintro f rfl
    cases hu with
    | refused h =>
      simp only [act?, hi.getElem?_eq, MoveCall.step?, announce, Option.bind_eq_bind,
        Option.bind_some, Option.pure_def, hi.putAt_none]
      rw [← givePermit, (takePermit?_eq h).2.1]

/-- **A refused order leaves no trace.** Whatever the clients, the stepper and the hardware do, in
whatever order: an order to go nowhere is refused before its call begins, and no other order is.
Of the calls that begin, those are refused that find, when they look, the power on and a relative
order that leads to no position, and no others. Until its order is accepted a call makes no
difference to anybody else but by the permit that it may have, and when it fails it makes none at
all: the state is the one that the others' actions alone lead to. -/
theorem refused_move_leaves_no_trace {p : StepPeriods} {rate : Nat} {t : Trace} {c₀ : Crowd}
    (h : Reaches p rate t c₀) (ho : Position.IsWord o.steps) :
    (∀ f, c₀.order o = .error f ↔
      o.relative = false ∧ o.steps = Position.nowhere ∧ f = .moveTarget o.steps) ∧
    ∀ as i c, Meanwhile o c₀ as i c →
      (∀ f c', c.calls[i]? = some (.launching o) → c.act? (.proceed i) = some c' →
        (c'.calls[i]? = some (.announcing (.refused f)) ↔
          c.drive.axis.isOff = false ∧ o.relative = true ∧
            (¬ Position.IsWord (c.drive.axis.position + o.steps) ∨
              c.drive.axis.position + o.steps = Position.nowhere) ∧
            f = .moveLeavesRange o.steps c.drive.axis.position)) ∧
      ∃ k, c.calls[i]? = some k ∧
        (k.accepted = true ∨ ∃ u w, LeavesNoTrace o t c₀ as i c k u w) := by
  refine ⟨fun f => order_eq_error_iff ho, fun as i c hm => ⟨fun f c' hi ha => ?_, ?_⟩⟩
  · obtain ⟨m, hins⟩ : ∃ m, Inserted i (.launching o) c.calls m :=
      ⟨_, inserted_of_getElem? hi⟩
    rw [launching_cases hi ha, (hins.putAt_some _).getElem?_eq, ← launch_eq_refused_iff]
    simp
  · obtain ⟨k, m, hi, hk | ⟨u, w, hp, rfl, hu⟩⟩ := unseen_of_meanwhile h hm
    · exact ⟨k, hi.getElem?_eq, .inl hk⟩
    · exact ⟨k, hi.getElem?_eq, .inr ⟨u, w, hu.leavesNoTrace hi hp⟩⟩

/-- To go up from the origin as far as the lowest word, where no position is. -/
def upToNowhere : MoveOrder := ⟨true, Position.nowhere, .fastest⟩

/-- Where a client with that order has the permit and is about to fail, while another one waits for
the permit. -/
theorem refused_move_leaves_no_trace_upToNowhere :
    ∃ d t c₀, Drive.ofPeriods .standard 1 = .ok d ∧
      play? act? [] ⟨d, []⟩ [.powerOn] = some (t, c₀) ∧ Position.IsWord upToNowhere.steps ∧
      ∃ as c, Meanwhile upToNowhere c₀ as 0 c ∧
        c.calls = [.announcing (.refused (.moveLeavesRange Position.nowhere 0)),
          .takingPermit ⟨false, 1, .fastest⟩] ∧
        ∃ u w, LeavesNoTrace upToNowhere t c₀ as 0 c
          (.announcing (.refused (.moveLeavesRange Position.nowhere 0))) u w := by
  have hword : Position.IsWord upToNowhere.steps := by decide
  refine ⟨_, _, _, rfl, rfl, hword, _, _, .own (.own (.other
    (a := .enter (.takingPermit ⟨false, 1, .fastest⟩)) (.call rfl) rfl rfl) rfl rfl) rfl rfl, ?_, ?_⟩
  · rfl
  · obtain ⟨-, hm⟩ := refused_move_leaves_no_trace
      (of_play? (P := Reaches .standard 1) (fun _ _ _ _ => .act) [.powerOn] (.start rfl) rfl) hword
    obtain ⟨-, k, hk, hacc | h⟩ := hm _ _ _ (.own (.own (.other
      (a := .enter (.takingPermit ⟨false, 1, .fastest⟩)) (.call rfl) rfl rfl) rfl rfl) rfl rfl)
    · cases hk
      cases hacc
    · cases hk
      exact h

end Crowd

end Drive

end SwitchBench
