import SwitchBench.Proofs.Sync.Pollers

/-!
# No wake-up is lost

A poll sleeps after it found none of its sources ready. A source may have become ready since, also
while the poll was still looking at the others. Whoever made it ready then has the signal of the
poller among those to raise, because the poll subscribed before it looked, and a living signal is
never dropped. So of each source that was found unready in this round, as long as the signal is
not raised: it is unready still, or the thread that made it ready has yet to raise the signal
(`Covered`). Nothing but the poll itself lowers the signal, and it forgets then what it saw.

Results: `Covered.act` (what an action does to a source that was found unready), `Sound.act`
(every action keeps what a poll knows), `no_wakeup_is_lost`.
-/

namespace SwitchBench

variable {x y : Exchange} {p q : Polling} {ph : PollPhase} {s : Source} {g : Signal}
  {thread poller : Nat}

/-- A step of a poll. -/
inductive Polling.Stride (x : Exchange) (p : Polling) : Exchange → PollPhase → Prop
  | subscribed (hp : p.phase = .subscribing []) : Stride x p x .lowering
  | subscribes {s : Source} {left : List Source} (hp : p.phase = .subscribing (s :: left)) :
      Stride x p (x.subscribe s (x.signal p.poller)) (.subscribing left)
  | lowers (hp : p.phase = .lowering) :
      Stride x p (x.lower (x.signal p.poller)) (.looking [] p.sources)
  | looks {seen : List Bool} {s : Source} {left : List Source}
      (hp : p.phase = .looking seen (s :: left)) :
      Stride x p x (.looking (seen ++ [x.isReady s]) left)
  | returns {seen : List Bool} (hp : p.phase = .looking seen []) (hs : true ∈ seen) :
      Stride x p x (.returned seen)
  | sleeps {seen : List Bool} (hp : p.phase = .looking seen []) (hs : true ∉ seen) :
      Stride x p x .sleeping
  | wakes (hp : p.phase = .sleeping) (hr : x.signal p.poller ∈ x.raised) : Stride x p x .lowering

theorem Polling.stride_of_step (h : p.step x = some (y, q)) :
    ∃ ph, q = { p with phase := ph } ∧ Stride x p y ph := by
  unfold step at h
  split at h <;> rename_i hp
  · cases h
    exact ⟨_, rfl, .subscribed hp⟩
  · cases h
    exact ⟨_, rfl, .subscribes hp⟩
  · cases h
    exact ⟨_, rfl, .lowers hp⟩
  · cases h
    refine ⟨_, rfl, ?_⟩
    split <;> rename_i hs
    · exact .returns hp (by simpa using hs)
    · exact .sleeps hp (by simpa using hs)
  · cases h
    exact ⟨_, rfl, .looks hp⟩
  · simp only [Option.ite_none_right_eq_some, Option.some.injEq, Prod.mk.injEq] at h
    obtain ⟨hr, rfl, rfl⟩ := h
    exact ⟨_, rfl, .wakes hp hr⟩
  · cases h

namespace SyncCall

variable {k : SyncCall} {next : Option SyncCall}

/-- A step of a call. -/
inductive Stride (x : Exchange) : SyncCall → Exchange → Option SyncCall → Prop
  | gathers (thread : Nat) (s : Source) :
      Stride x (telling thread s) (x.gather s).1 (some (raising thread s (x.gather s).2))
  | raises (thread : Nat) (s : Source) (g : Signal) (left : List Signal) :
      Stride x (raising thread s (g :: left)) (x.raise g) (some (raising thread s left))
  | toldAll (thread : Nat) (s : Source) : Stride x (raising thread s []) x none
  | polls {p : Polling} {w : Patience} {y : Exchange} {ph : PollPhase} (h : p.Stride x y ph) :
      Stride x (polling p w) y (some (polling { p with phase := ph } w))
  | answers {p : Polling} {w : Patience} {seen : List Bool} (hp : p.phase = .returned seen) :
      Stride x (polling p w) x none

theorem stride_of_step (h : k.step? x = some (y, next)) : Stride x k y next := by
  unfold step? at h
  split at h
  · cases h
    exact .gathers _ _
  · cases h
    exact .toldAll _ _
  · cases h
    exact .raises _ _ _ _
  · split at h
    · rename_i seen hp
      cases h
      exact .answers hp
    · simp only [Option.map_eq_some_iff, Prod.mk.injEq, Prod.exists] at h
      obtain ⟨y', q, hq, rfl, rfl⟩ := h
      obtain ⟨ph, rfl, hst⟩ := Polling.stride_of_step hq
      exact .polls hst

/-- Nobody changes a source by telling of a change or by polling. -/
theorem Stride.same_sources (h : Stride x k y next) :
    y.semaphores = x.semaphores ∧ y.queues = x.queues := by
  cases h with
  | polls h =>
    cases h with
    | subscribes =>
      unfold Exchange.subscribe
      split <;> exact ⟨rfl, rfl⟩
    | _ => exact ⟨rfl, rfl⟩
  | _ => exact ⟨rfl, rfl⟩

theorem Stride.isReady (h : Stride x k y next) (s : Source) : y.isReady s = x.isReady s := by
  obtain ⟨hsem, hq⟩ := h.same_sources
  cases s <;> simp only [Exchange.isReady, hsem, hq]

theorem Stride.signal (h : Stride x k y next) (poller : Nat) :
    y.signal poller = x.signal poller := by
  cases h with
  | polls h =>
    cases h with
    | subscribes => rw [Exchange.signal_subscribe]
    | _ => rfl
  | _ => rfl

/-- The signal of a poller stays subscribed. -/
theorem Stride.subscribed (h : Stride x k y next) (hs : (s, x.signal poller) ∈ x.subscriptions) :
    (s, x.signal poller) ∈ y.subscriptions := by
  have hlive := x.isAlive_signal poller
  cases h with
  | gathers => exact Exchange.mem_subscriptions_gather hs hlive _
  | polls h =>
    cases h with
    | subscribes => exact Exchange.mem_subscriptions_subscribe hs hlive _ _
    | _ => exact hs
  | _ => exact hs

/-- Only the poll of its poller lowers a signal. -/
theorem Stride.raised (h : Stride x k y next) (hg : x.signal poller ∈ x.raised)
    (hk : ∀ p w, k = polling p w → p.phase = .lowering → p.poller ≠ poller) :
    x.signal poller ∈ y.raised := by
  cases h with
  | raises => exact Exchange.mem_raised_raise.mpr (.inr hg)
  | polls h =>
    cases h with
    | subscribes => rwa [Exchange.raised_subscribe]
    | lowers hp =>
      exact Exchange.mem_raised_lower.mpr
        ⟨hg, fun he => hk _ _ rfl hp (congrArg Signal.poller he).symm⟩
    | _ => exact hg
  | _ => exact hg

/-- A call that is to raise a signal has raised it or is still to raise it after its next step. -/
theorem Stride.owes (h : Stride x k y next) (hs : (s, x.signal poller) ∈ x.subscriptions)
    (hk : k.owes thread s (x.signal poller)) :
    x.signal poller ∈ y.raised ∨ ∃ k' ∈ next, k'.owes thread s (x.signal poller) := by
  cases h with
  | gathers =>
    obtain ⟨rfl, rfl⟩ := hk
    exact .inr ⟨_, rfl, rfl, rfl, Exchange.mem_gather_iff.mpr ⟨hs, x.isAlive_signal poller⟩⟩
  | raises _ _ g left =>
    obtain ⟨rfl, rfl, hmem⟩ := hk
    rcases List.mem_cons.mp hmem with he | hmem
    · exact .inl (Exchange.mem_raised_raise.mpr (.inl he))
    · exact .inr ⟨_, rfl, rfl, rfl, hmem⟩
  | toldAll => exact absurd hk.2.2 List.not_mem_nil
  | polls => exact hk.elim
  | answers => exact hk.elim

theorem isOf_of_owes (h : k.owes thread s g) : k.isOf thread = true := by
  cases k with
  | telling t s' => exact decide_eq_true h.1
  | raising t s' left => exact decide_eq_true h.1
  | polling => exact h.elim

end SyncCall

namespace Exchange.Crowd

variable {t : Trace} {c c' : Crowd} {a : Action}

/-- A thread is still to raise a signal on account of a source. -/
def Owes (c : Crowd) (thread : Nat) (s : Source) (g : Signal) : Prop :=
  ∃ k ∈ c.calls, k.owes thread s g

/-- If a source is ready, then a signal is raised, or whoever made the source ready is still to
raise it. -/
def Covered (t : Trace) (c : Crowd) (g : Signal) (s : Source) : Prop :=
  c.exchange.isReady s = true →
    g ∈ c.exchange.raised ∨ ∃ thread, maker? t s = some thread ∧ c.Owes thread s g

theorem covered_of_not_ready (h : c.exchange.isReady s = false) : Covered t c g s := by
  intro hr
  rw [h] at hr
  cases hr

theorem maker?_of_change_eq_none (h : c.change? a = none) (s : Source) :
    maker? ((c, a) :: t) s = maker? t s := by
  simp only [maker?, h]

theorem looks_of_acting_eq_none (h : c.acting? a = none) (poller : Nat) :
    looks ((c, a) :: t) poller = looks t poller := by
  simp only [looks, h]

theorem looks_of_acting (h : c.acting? a = some p) :
    looks ((c, a) :: t) p.poller = p.phase.noteLook c.exchange (looks t p.poller) := by
  simp only [looks, h, if_true]

theorem looks_of_acting_ne (h : c.acting? a = some p) (hp : p.poller ≠ poller) :
    looks ((c, a) :: t) poller = looks t poller := by
  simp only [looks, h, if_neg hp]

/-- **What an action does to a source that a poller found unready**: if it makes the source ready,
then the signal is raised after it. -/
theorem Covered.act (h : Covered t c (c.exchange.signal poller) s)
    (hs : (s, c.exchange.signal poller) ∈ c.exchange.subscriptions) (hturn : Turn c a c')
    (ha : ∀ p, c.acting? a = some p → p.phase = .lowering → p.poller ≠ poller) :
    Covered ((c, a) :: t) c' (c.exchange.signal poller) s := by
  intro hr
  cases hturn with
  | @feeds thread s' x hc _ hidle hx =>
    by_cases hnew : s' = s ∧ c.exchange.isReady s = false
    · refine .inr ⟨thread, by simp only [maker?, hc, if_pos hnew], ?_⟩
      exact ⟨_, List.mem_append_right _ (List.mem_singleton_self _), rfl, hnew.1⟩
    · have hready : c.exchange.isReady s = true := by
        by_cases he : s' = s
        · exact Bool.not_eq_false _ ▸ fun hf => hnew ⟨he, hf⟩
        · rwa [hx.others s (Ne.symm he)] at hr
      rcases h hready with hg | ⟨maker, hm, k, hk, howes⟩
      · exact .inl (hx.raised ▸ hg)
      · have hbusy : maker ≠ thread := by
          rintro rfl
          exact Bool.false_ne_true ((hidle k hk).symm.trans (SyncCall.isOf_of_owes howes))
        refine .inr ⟨maker, ?_, k, List.mem_append_left _ hk, howes⟩
        have hkept : some maker ≠ some thread := fun he => hbusy (Option.some.inj he)
        simp only [maker?, hc, if_neg hnew, hm, if_neg hkept]
  | drains hc _ hx =>
    rw [maker?_of_change_eq_none hc]
    exact (h (hx.ready s hr)).imp (hx.raised ▸ ·) id
  | begins hc =>
    rw [maker?_of_change_eq_none hc]
    rcases h hr with hg | ⟨maker, hm, k, hk, howes⟩
    · exact .inl hg
    · exact .inr ⟨maker, hm, k, List.mem_append_left _ hk, howes⟩
  | renews hc =>
    rw [maker?_of_change_eq_none hc]
    exact h hr
  | @proceeds i k x next hc hi hk hstep =>
    have hst := SyncCall.stride_of_step hstep
    rw [maker?_of_change_eq_none hc]
    rcases h ((hst.isReady s).symm.trans hr) with hg | ⟨maker, hm, k', hk', howes⟩
    · refine .inl (hst.raised hg fun p w hp => ha p ?_)
      simp only [hi, acting?, hk, hp]
    · rcases mem_putAt_of_mem hk hk' next with rfl | hmem
      · rcases hst.owes hs howes with hg | ⟨k₁, hk₁, howes⟩
        · exact .inl hg
        · exact .inr ⟨maker, hm, k₁, mem_putAt_iff.mpr (.inr hk₁), howes⟩
      · exact .inr ⟨maker, hm, k', hmem, howes⟩
  | givesUp hc _ hk =>
    rw [maker?_of_change_eq_none hc]
    rcases h hr with hg | ⟨maker, hm, k', hk', howes⟩
    · exact .inl hg
    · rcases mem_putAt_of_mem hk hk' none with rfl | hmem
      · exact howes.elim
      · exact .inr ⟨maker, hm, k', hmem, howes⟩

/-! ## What a poll knows -/

/-- What is known of a poll, by how far it has come. -/
def Knows (t : Trace) (c : Crowd) (p : Polling) : Prop :=
  let g := c.exchange.signal p.poller
  match p.phase with
  | .subscribing left =>
    ∃ done, p.sources = done ++ left ∧ ∀ s ∈ done, (s, g) ∈ c.exchange.subscriptions
  | .lowering => ∀ s ∈ p.sources, (s, g) ∈ c.exchange.subscriptions
  | .looking seen left =>
    (∀ s ∈ p.sources, (s, g) ∈ c.exchange.subscriptions) ∧
      (looks t p.poller).map (·.1) ++ left = p.sources ∧ (looks t p.poller).map (·.2) = seen ∧
      ∀ s, (s, false) ∈ looks t p.poller → Covered t c g s
  | .sleeping => ∀ s ∈ p.sources, (s, g) ∈ c.exchange.subscriptions ∧ Covered t c g s
  | .returned seen =>
    true ∈ seen ∧ (looks t p.poller).map (·.1) = p.sources ∧ (looks t p.poller).map (·.2) = seen

/-- What a poll knows lasts while its signal stays subscribed, it looks at nothing, and what it
found unready is still covered. -/
theorem Knows.frame {t' : Trace} (h : Knows t c p)
    (hg : c'.exchange.signal p.poller = c.exchange.signal p.poller)
    (hsub : ∀ s, (s, c.exchange.signal p.poller) ∈ c.exchange.subscriptions →
      (s, c.exchange.signal p.poller) ∈ c'.exchange.subscriptions)
    (hl : looks t' p.poller = looks t p.poller)
    (hc : ∀ s, (s, c.exchange.signal p.poller) ∈ c.exchange.subscriptions →
      Covered t c (c.exchange.signal p.poller) s → Covered t' c' (c.exchange.signal p.poller) s) :
    Knows t' c' p := by
  unfold Knows at h ⊢
  rw [hg, hl]
  split at h
  · obtain ⟨done, hd, h⟩ := h
    exact ⟨done, hd, fun s hs => hsub s (h s hs)⟩
  · exact fun s hs => hsub s (h s hs)
  · obtain ⟨h, hfst, hsnd, hcov⟩ := h
    refine ⟨fun s hs => hsub s (h s hs), hfst, hsnd, fun s hs => hc s (h s ?_) (hcov s hs)⟩
    rw [← hfst]
    exact List.mem_append_left _ (List.mem_map_of_mem hs)
  · exact fun s hs => ⟨hsub s (h s hs).1, hc s (h s hs).1 (h s hs).2⟩
  · exact h

/-- A poll that begins knows nothing. -/
theorem knows_start (t : Trace) (c : Crowd) (poller : Nat) (sources : List Source) :
    Knows t c (.start poller sources) :=
  ⟨[], rfl, fun _ hs => absurd hs List.not_mem_nil⟩

/-- A poller that polls keeps its signal. -/
theorem Turn.signal (h : Turn c a c') {w : Patience} (hp : .polling p w ∈ c.calls) :
    c'.exchange.signal p.poller = c.exchange.signal p.poller := by
  cases h with
  | feeds _ _ _ hx => exact hx.signal _
  | drains _ _ hx => exact hx.signal _
  | begins => rfl
  | @renews poller _ _ hidle =>
    refine signal_renew fun he => ?_
    have := hidle _ hp
    simp [SyncCall.isPollBy, he] at this
  | proceeds _ _ _ hstep => exact (SyncCall.stride_of_step hstep).signal _
  | givesUp => rfl

/-- The signal of a poller stays subscribed. -/
theorem Turn.subscribed (h : Turn c a c')
    (hs : (s, c.exchange.signal poller) ∈ c.exchange.subscriptions) :
    (s, c.exchange.signal poller) ∈ c'.exchange.subscriptions := by
  cases h with
  | feeds _ _ _ hx => exact hx.subscriptions ▸ hs
  | drains _ _ hx => exact hx.subscriptions ▸ hs
  | proceeds _ _ _ hstep => exact (SyncCall.stride_of_step hstep).subscribed hs
  | _ => exact hs

/-- What a poll knows lasts while others act. -/
theorem Knows.act (h : Knows t c p) (hturn : Turn c a c') {w : Patience}
    (hp : .polling p w ∈ c.calls) (ha : ∀ q, c.acting? a = some q → q.poller ≠ p.poller) :
    Knows ((c, a) :: t) c' p := by
  refine h.frame (hturn.signal hp) (fun s hs => hturn.subscribed hs) ?_
    fun s hs hc => hc.act hs hturn fun q hq _ => ha q hq
  cases hq : c.acting? a with
  | none => exact looks_of_acting_eq_none hq _
  | some q => exact looks_of_acting_ne hq (ha q hq)

/-- **What a poll knows after its own step.** -/
theorem Knows.stride (h : Knows t c p) {w : Patience} {calls : List SyncCall}
    (hturn : Turn c a ⟨y, calls⟩) (hp : .polling p w ∈ c.calls) (ha : c.acting? a = some p)
    (hst : p.Stride c.exchange y ph) : Knows ((c, a) :: t) ⟨y, calls⟩ { p with phase := ph } := by
  have hl := looks_of_acting (t := t) ha
  have hsub : ∀ s, (s, c.exchange.signal p.poller) ∈ c.exchange.subscriptions →
      (s, c.exchange.signal p.poller) ∈ y.subscriptions := fun s hs => hturn.subscribed hs
  have hcov : ∀ s, p.phase ≠ .lowering →
      (s, c.exchange.signal p.poller) ∈ c.exchange.subscriptions →
      Covered t c (c.exchange.signal p.poller) s →
      Covered ((c, a) :: t) ⟨y, calls⟩ (c.exchange.signal p.poller) s := by
    intro s hne hs hc
    refine hc.act hs hturn fun q hq hlow => absurd ?_ hne
    rw [ha] at hq
    cases hq
    exact hlow
  have hg : y.signal p.poller = c.exchange.signal p.poller := hturn.signal hp
  unfold Knows at h ⊢
  simp only [hg, hl]
  cases hst with
  | subscribed hph =>
    simp only [hph, List.append_nil] at h
    obtain ⟨done, rfl, h⟩ := h
    exact h
  | @subscribes s left hph =>
    simp only [hph] at h
    obtain ⟨done, hd, h⟩ := h
    refine ⟨done ++ [s], by simp [hd], fun s' hs' => ?_⟩
    rcases List.mem_append.mp hs' with hs' | hs'
    · exact hsub s' (h s' hs')
    · obtain rfl := List.mem_singleton.mp hs'
      exact subscribed_subscribe _ _ _
  | lowers hph =>
    simp only [hph] at h
    simp only [hph, PollPhase.noteLook]
    exact ⟨h, rfl, rfl, fun _ hs => absurd hs List.not_mem_nil⟩
  | @looks seen s left hph =>
    simp only [hph] at h
    obtain ⟨h, hfst, hsnd, hc⟩ := h
    simp only [hph, PollPhase.noteLook, List.map_append, List.map_cons, List.map_nil, hsnd,
      List.append_assoc, List.cons_append, List.nil_append, hfst, true_and]
    refine ⟨h, fun s' hs' => ?_⟩
    rcases List.mem_append.mp hs' with hs' | hs'
    · have hmem : s' ∈ p.sources := hfst ▸ List.mem_append_left _ (List.mem_map_of_mem hs')
      exact hcov s' (by simp [hph]) (h s' hmem) (hc s' hs')
    · obtain ⟨rfl, hready⟩ := Prod.mk.inj (List.mem_singleton.mp hs')
      exact covered_of_not_ready hready.symm
  | @returns seen hph hseen =>
    simp only [hph, List.append_nil] at h
    simp only [hph, PollPhase.noteLook]
    exact ⟨hseen, h.2.1, h.2.2.1⟩
  | @sleeps seen hph hseen =>
    simp only [hph, List.append_nil] at h
    obtain ⟨h, hfst, hsnd, hc⟩ := h
    -- the source was looked at, and found unready as all others
    refine fun s hs => ⟨h s hs, hcov s (by simp [hph]) (h s hs) (hc s ?_)⟩
    rw [← hfst, List.mem_map] at hs
    obtain ⟨⟨s, b⟩, hs, rfl⟩ := hs
    cases b with
    | false => exact hs
    | true => exact absurd (hsnd ▸ List.mem_map_of_mem hs) hseen
  | wakes hph =>
    simp only [hph] at h
    exact fun s hs => (h s hs).1

/-- Some sources with what is in progress on them: one poll for each poller, and each knows what
it should. -/
structure Sound (t : Trace) (c : Crowd) : Prop where
  alone : ∀ poller, c.calls.countP (·.isPollBy poller) ≤ 1
  knows : ∀ p w, .polling p w ∈ c.calls → Knows t c p

/-- At most one poll by a poller is in progress, after any action. -/
theorem Turn.alone (h : Turn c a c') (hone : c.calls.countP (·.isPollBy poller) ≤ 1) :
    c'.calls.countP (·.isPollBy poller) ≤ 1 := by
  cases h with
  | feeds => simpa using hone
  | drains => exact hone
  | @begins starter sources w _ _ hidle =>
    rw [List.countP_append, List.countP_singleton, SyncCall.isPollBy_polling]
    by_cases he : starter = poller
    · have hnone : c.calls.countP (·.isPollBy poller) = 0 :=
        List.countP_eq_zero.mpr fun k hk => by rw [← he, hidle k hk]; exact Bool.false_ne_true
      rw [hnone]
      split <;> omega
    · simpa [Polling.start, he] using hone
  | renews => exact hone
  | @proceeds i k x next _ _ hk hstep =>
    have hcount := countP_putAt hk (·.isPollBy poller) next
    have hnext : next.toList.countP (·.isPollBy poller) ≤ (k.isPollBy poller).toNat := by
      cases SyncCall.stride_of_step hstep with
      | @polls p _ _ _ _ => by_cases he : p.poller = poller <;> simp [he]
      | _ => simp
    show (putAt c.calls i next).countP (·.isPollBy poller) ≤ 1
    omega
  | @givesUp i p w _ _ hk =>
    have hcount := countP_putAt hk (·.isPollBy poller) none
    rw [Option.toList_none, List.countP_nil] at hcount
    show (putAt c.calls i none).countP (·.isPollBy poller) ≤ 1
    omega

/-- **Every action keeps what the polls know.** -/
theorem Sound.act (h : Sound t c) (ha : c.act? a = some c') : Sound ((c, a) :: t) c' := by
  have hturn := turn_of_act ha
  refine ⟨fun poller => hturn.alone (h.alone poller), fun p w hp => ?_⟩
  have hothers : c.acting? a = none → .polling p w ∈ c.calls → Knows ((c, a) :: t) c' p :=
    fun hnone hmem => (h.knows p w hmem).act hturn hmem fun q hq => by
      rw [hnone] at hq
      cases hq
  cases turn_of_act ha with
  | feeds _ hnone =>
    rcases List.mem_append.mp hp with hp | hp
    · exact hothers hnone hp
    · cases List.mem_singleton.mp hp
  | drains _ hnone => exact hothers hnone hp
  | begins _ hnone =>
    rcases List.mem_append.mp hp with hp | hp
    · exact hothers hnone hp
    · cases List.mem_singleton.mp hp
      exact knows_start _ _ _ _
  | renews _ hnone => exact hothers hnone hp
  | @proceeds i k x next hc hi hk hstep =>
    have hst := SyncCall.stride_of_step hstep
    rcases mem_putAt_iff.mp hp with hother | rfl
    · -- if a poll acts, then it is by another poller
      have hmem : .polling p w ∈ c.calls := (mem_putAt hother).resolve_right nofun
      refine (h.knows p w hmem).act hturn hmem fun q hq => ?_
      obtain ⟨v, rfl⟩ : ∃ v, k = .polling q v := by
        simp only [hi, acting?, hk] at hq
        split at hq <;> simp_all
      intro he
      have hcount := countP_putAt hk (·.isPollBy p.poller) none
      have hone := h.alone p.poller
      have hpos : 0 < (putAt c.calls i none).countP (·.isPollBy p.poller) :=
        List.countP_pos_iff.mpr ⟨_, hother, by simp⟩
      simp [he] at hcount
      omega
    · cases hst with
      | polls hph =>
        have hmem := List.mem_of_getElem? hk
        exact (h.knows _ w hmem).stride hturn hmem (by simp only [hi, acting?, hk]) hph
  | givesUp _ hnone =>
    rcases mem_putAt hp with hp | hp
    · exact hothers hnone hp
    · cases hp

theorem Reaches.sound (h : Reaches t c) : Sound t c := by
  induction h with
  | start => exact ⟨fun _ => Nat.zero_le _, fun _ _ hp => absurd hp List.not_mem_nil⟩
  | act _ ha ih => exact ih.act ha

/-! ## The results -/

/-- Is it an action of a poll? -/
def isOfPoll (c : Crowd) : Action → Bool
  | .poll _ _ _ | .giveUp _ => true
  | a => (c.acting? a).isSome

theorem same_sources_of_poll (ha : c.act? a = some c') (hp : c.isOfPoll a = true) :
    c'.exchange.semaphores = c.exchange.semaphores ∧ c'.exchange.queues = c.exchange.queues := by
  cases a with
  | poll poller sources w =>
    simp only [act?, Option.ite_none_right_eq_some, Option.some.injEq] at ha
    obtain ⟨-, rfl⟩ := ha
    exact ⟨rfl, rfl⟩
  | proceed i =>
    cases turn_of_act ha with
    | proceeds _ hi hk hstep => exact (SyncCall.stride_of_step hstep).same_sources
    | _ => simp_all [isOfPoll]
  | giveUp i =>
    simp only [act?] at ha
    split at ha <;> simp only [Option.ite_none_right_eq_some, Option.some.injEq, reduceCtorEq] at ha
    obtain ⟨-, rfl⟩ := ha
    exact ⟨rfl, rfl⟩
  | _ => cases hp

/-- Whoever is still to raise a signal never has to wait. -/
theorem proceeds_of_owes {i : Nat} {k : SyncCall} (hk : c.calls[i]? = some k)
    (h : k.owes thread s g) : (c.act? (.proceed i)).isSome = true := by
  cases k with
  | telling => simp [act?, hk, SyncCall.step?]
  | raising thread s left =>
    cases left <;> simp [act?, hk, SyncCall.step?]
  | polling => exact h.elim

/-- **No wake-up of a poller is lost.** However the steps of polls come in between those of any
number of threads that give, take, reset, send, fetch, discard and poll:

* while a poll sleeps with its signal lowered, each of its sources is unready, or the thread that
  made it ready is still to raise the signal;
* a poll without a time limit never gives up, and with a source ready it is not left asleep:
  it can go on, or the thread that made the source ready can, which is still to wake it;
* what a poll returns has a ready source in it, and is what the poll saw when it looked at its
  sources, each once and in order, since it last lowered its signal;
* no action of a poll changes a semaphore or a queue. -/
theorem no_wakeup_is_lost (h : Reaches t c) :
    (∀ p w, .polling p w ∈ c.calls → p.phase = .sleeping →
      c.exchange.signal p.poller ∉ c.exchange.raised → ∀ s ∈ p.sources,
        c.exchange.isReady s = false ∨
          ∃ thread, maker? t s = some thread ∧ c.Owes thread s (c.exchange.signal p.poller)) ∧
    (∀ i p, c.calls[i]? = some (.polling p .forever) → c.act? (.giveUp i) = none ∧
      (p.phase = .sleeping → ∀ s ∈ p.sources, c.exchange.isReady s = true →
        (c.act? (.proceed i)).isSome = true ∨
          ∃ j k thread, c.calls[j]? = some k ∧ maker? t s = some thread ∧
            k.owes thread s (c.exchange.signal p.poller) ∧
            (c.act? (.proceed j)).isSome = true)) ∧
    (∀ p w seen, .polling p w ∈ c.calls → p.phase = .returned seen →
      true ∈ seen ∧ (looks t p.poller).map (·.1) = p.sources ∧
        (looks t p.poller).map (·.2) = seen) ∧
    ∀ a c', c.act? a = some c' → c.isOfPoll a = true →
      c'.exchange.semaphores = c.exchange.semaphores ∧
        c'.exchange.queues = c.exchange.queues := by
  have hcov : ∀ p w, .polling p w ∈ c.calls → p.phase = .sleeping → ∀ s ∈ p.sources,
      Covered t c (c.exchange.signal p.poller) s := by
    intro p w hp hph s hs
    have hk := h.sound.knows p w hp
    simp only [Knows, hph] at hk
    exact (hk s hs).2
  refine ⟨fun p w hp hph hg s hs => ?_, fun i p hi => ⟨?_, fun hph s hs hr => ?_⟩,
    fun p w seen hp hph => ?_, fun a c' => same_sources_of_poll⟩
  · cases hr : c.exchange.isReady s with
    | false => exact .inl rfl
    | true => exact .inr ((hcov p w hp hph s hs hr).resolve_left hg)
  · simp [act?, hi]
  · rcases hcov p .forever (List.mem_of_getElem? hi) hph s hs hr with
      hg | ⟨thread, hm, k, hk, howes⟩
    · exact .inl (by simp [act?, hi, SyncCall.step?, Polling.step, hph, hg])
    · obtain ⟨j, hj⟩ := List.mem_iff_getElem?.mp hk
      exact .inr ⟨j, k, thread, hj, hm, howes, proceeds_of_owes hj howes⟩
  · have hk := h.sound.knows p w hp
    simpa only [Knows, hph] using hk

/-- A poll over a semaphore and a queue falls asleep, and a thread gives a unit. -/
def gaveAfterLook : List Action :=
  .poll 0 [.semaphore 0, .queue 0] .forever :: List.replicate 7 (.proceed 0) ++ [.give 7 0]

/-- The thread tells the poller, which looks once more. -/
def toldAndWoken : List Action :=
  List.replicate 3 (.proceed 1) ++ List.replicate 5 (.proceed 0)

theorem no_wakeup_is_lost_gaveAfterLook :
    ∃ t c p, play? act? [] ⟨.ofSources [.flag] [.empty], []⟩ gaveAfterLook = some (t, c) ∧
      .polling p .forever ∈ c.calls ∧ p.phase = .sleeping ∧
      c.exchange.signal p.poller ∉ c.exchange.raised ∧ .semaphore 0 ∈ p.sources ∧
      (∃ thread, maker? t (.semaphore 0) = some thread ∧
        c.Owes thread (.semaphore 0) (c.exchange.signal p.poller)) ∧
      ∃ t' c' q, play? act? t c toldAndWoken = some (t', c') ∧
        .polling q .forever ∈ c'.calls ∧ q.phase = .returned [true, false] ∧
        looks t' 0 = [(.semaphore 0, true), (.queue 0, false)] ∧
        true ∈ [true, false] ∧ (looks t' q.poller).map (·.1) = q.sources ∧
        (looks t' q.poller).map (·.2) = [true, false] := by
  have hgave := of_play? (P := Reaches) (fun _ _ _ _ => .act) gaveAfterLook
    (.start [.flag] [.empty]) rfl
  have htold := of_play? (P := Reaches) (fun _ _ _ _ => .act) toldAndWoken hgave rfl
  refine ⟨_, _, _, rfl, List.mem_cons_self, rfl, by decide, by decide,
    ((no_wakeup_is_lost hgave).1 _ _ List.mem_cons_self rfl (by decide) _
      List.mem_cons_self).resolve_left (by decide),
    _, _, _, rfl, List.mem_cons_self, rfl, rfl, ?_⟩
  exact (no_wakeup_is_lost htold).2.2.1 _ _ _ List.mem_cons_self rfl

end Exchange.Crowd

end SwitchBench
