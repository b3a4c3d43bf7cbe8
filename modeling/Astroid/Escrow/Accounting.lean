import Astroid.Escrow.Books
import Astroid.Escrow.Refinement
import Astroid.Escrow.Vesting

/-!
# The books stay sound

Every step of an account keeps it sound (`Account.Step.sound`), so every
reachable state of the contract has sound accounts (`Reachable.consistent`) and,
where tokens are exact, a custody balance that covers what came in and did not
go out (`Reachable.custody`).
-/

namespace Astroid
namespace EscrowContract

open Tally ProRata

section Steps

variable {current : Address} {now : UInt64} {call : Call} {id : ℕ} {a a' : Account}
  {e e' : Escrow}

/-! ## Two ways to keep the books -/

/-- Paying an instalment keeps the books of a funded account. -/
theorem Account.Funded.extend {payee : Address} {units : ℤ} {legs : List Leg}
    (h : a.Funded e) (hterms : SameTerms e e') (hstate : e'.state ≠ .created)
    (hin : a'.inflows = a.inflows) (hout : a'.outflows = a.outflows ++ legs)
    (hpay : a'.payouts = a.payouts ++ [⟨id, payee, units⟩])
    (hms : a'.milestones.isSome = a.milestones.isSome)
    (hpayee : payee = e.recipient ∨ payee = e.sender)
    (hlegs : ∀ l ∈ legs, 0 ≤ l.amount ∧ l.party = payee)
    (hshare : ∀ asset, tally (·.amount) (·.asset = asset) legs
      = share (amountOf e.assets asset) e.fundedAmount units)
    (hunits : 0 ≤ units) (hle : a.spent + units ≤ e.fundedAmount)
    (hopen : e'.state.IsOpen → a.spent + units = a'.released e')
    (hfinal : ¬ e'.state.IsOpen → a.spent + units = e.fundedAmount)
    (hprogress : ∀ set, a'.milestones = some set → e'.state.IsOpen → Progress e'.fundedAmount set) :
    a'.Funded e' := by
  have hspent : a'.spent = a.spent + units := by
    simp [Account.spent, Account.units, hpay]
  constructor
  · rw [hterms.fundedAmount, hterms.assets]
    exact h.fundedAmount
  · intro hnone
    rw [hnone, Option.isSome_none, eq_comm, Option.isSome_eq_false_iff,
      Option.isNone_iff_eq_none] at hms
    rw [hterms.fundedAmount]
    exact h.range hms
  · exact hstate
  · intro asset
    rw [hterms.assets, ← h.deposited]
    unfold Account.deposited
    rw [hin]
  · intro asset
    have hpaid := h.paidOut asset
    unfold Account.paidOut Account.units at hpaid ⊢
    rw [hout, tally_append, hpaid, hshare, hterms.assets, hterms.fundedAmount, hpay]
    simp
  · rw [hout, hterms.sender, hterms.recipient]
    intro l hl
    rcases List.mem_append.1 hl with hl | hl
    · exact h.outflow l hl
    · obtain ⟨hamount, hparty⟩ := hlegs l hl
      rw [hparty]
      exact ⟨hamount, hpayee⟩
  · rw [hpay, hterms.sender, hterms.recipient]
    intro p hp
    rcases List.mem_append.1 hp with hp | hp
    · exact h.payout p hp
    · rw [List.mem_singleton] at hp
      subst hp
      exact ⟨hunits, hpayee⟩
  · rw [hspent, hterms.fundedAmount]
    exact hle
  · rw [hspent]
    exact hopen
  · rw [hspent, hterms.fundedAmount]
    exact hfinal
  · intro set hset
    rw [hset, Option.isSome_some, eq_comm, Option.isSome_iff_exists] at hms
    obtain ⟨set₀, hset₀⟩ := hms
    rw [hterms.assets, hterms.schedule]
    exact h.phased set₀ hset₀
  · exact hprogress

/-- Restating the record or the milestones without paying keeps the books of a
funded account. -/
theorem Account.Funded.restate (h : a.Funded e) (hterms : SameTerms e e')
    (hstate : e'.state ≠ .created) (hin : a'.inflows = a.inflows)
    (hout : a'.outflows = a.outflows) (hpay : a'.payouts = a.payouts)
    (hms : a'.milestones.isSome = a.milestones.isSome) (hisOpen : e'.state.IsOpen ↔ e.state.IsOpen)
    (hreleased : e.state.IsOpen → a'.released e' = a.released e)
    (hprogress : ∀ set, a'.milestones = some set → e'.state.IsOpen → Progress e'.fundedAmount set) :
    a'.Funded e' := by
  have hunits : a'.units = a.units := by
    unfold Account.units
    rw [hpay]
  have hspent : a'.spent = a.spent := by
    unfold Account.spent
    rw [hunits]
  constructor
  · rw [hterms.fundedAmount, hterms.assets]
    exact h.fundedAmount
  · intro hnone
    rw [hnone, Option.isSome_none, eq_comm, Option.isSome_eq_false_iff,
      Option.isNone_iff_eq_none] at hms
    rw [hterms.fundedAmount]
    exact h.range hms
  · exact hstate
  · intro asset
    rw [hterms.assets, ← h.deposited]
    unfold Account.deposited
    rw [hin]
  · intro asset
    rw [hterms.assets, hterms.fundedAmount, hunits, ← h.paidOut]
    unfold Account.paidOut
    rw [hout]
  · rw [hout, hterms.sender, hterms.recipient]
    exact h.outflow
  · rw [hpay, hterms.sender, hterms.recipient]
    exact h.payout
  · rw [hspent, hterms.fundedAmount]
    exact h.spent_le
  · intro hopen
    have hopen' := hisOpen.1 hopen
    rw [hspent, hreleased hopen']
    exact h.spent_open hopen'
  · intro hfinal
    rw [hspent, hterms.fundedAmount]
    exact h.spent_final fun hopen => hfinal (hisOpen.2 hopen)
  · intro set hset
    rw [hset, Option.isSome_some, eq_comm, Option.isSome_iff_exists] at hms
    obtain ⟨set₀, hset₀⟩ := hms
    rw [hterms.assets, hterms.schedule]
    exact h.phased set₀ hset₀
  · exact hprogress

/-! ## Every step keeps the books -/

theorem Reason.payee {payee : Address} {units : ℤ} (h : Reason now call id e payee units) :
    payee = e.recipient ∨ payee = e.sender := by
  cases h with
  | instalment => exact .inl rfl
  | claimRest => exact .inl rfl
  | settle => exact .inl rfl
  | giveBack => exact .inr rfl

/-- No payout exceeds what is left, and none is negative. -/
theorem Reason.units_bounds {payee : Address} {units : ℤ} (h : Reason now call id e payee units)
    (hamount : 0 ≤ e.fundedAmount) (hreleased : e.releasedAmount ≤ e.fundedAmount) :
    0 ≤ units ∧ e.releasedAmount + units ≤ e.fundedAmount := by
  cases h with
  | instalment _ hpos _ _ hvested =>
      obtain ⟨vested, hcalc, hle⟩ := hvested
      have hcurve : vestedUnits e.fundedAmount e.schedule now.toNat ≤ e.fundedAmount :=
        vestedUnits_le hamount
      rw [← calculateVestedAmount_eq hamount hcalc] at hcurve
      exact ⟨hpos.le, hle.trans hcurve⟩
  | claimRest => constructor <;> linarith
  | settle => constructor <;> linarith
  | giveBack => constructor <;> linarith

/-- A record never funded only ever pays nothing. -/
theorem Account.Unfunded.paid {payee : Address} {units : ℤ} {legs : List Leg}
    (h : a.Unfunded e) (hreason : Reason now call id e payee units) (hpaid : Paid e units e')
    (hsends : Sends id e payee units legs) :
    Account.Unfunded ⟨some e', a.milestones, a.inflows, a.outflows ++ legs,
      a.payouts ++ [⟨id, payee, units⟩]⟩ e' := by
  have hfunded : e.state ≠ .funded := fun hs => h.notOpen (.inl hs)
  have hexpired : e.state ≠ .expired := fun hs => h.notOpen (.inr hs)
  have hunits : units = e.fundedAmount - e.releasedAmount ∧ e.state = .created := by
    cases hreason with
    | instalment hs => exact absurd hs hfunded
    | claimRest hs => exact ⟨rfl, hs.resolve_left fun hs => hfunded hs.1⟩
    | settle hs => exact absurd hs hfunded
    | giveBack hs => exact ⟨rfl, (hs.resolve_left hfunded).resolve_left hexpired⟩
  have hzero : units = 0 := by
    rw [hunits.1, h.fundedAmount, h.releasedAmount hunits.2, sub_zero]
  have hlegs : legs = [] := by
    rw [hsends.eq hzero.ge, hzero, shareLegs_zero]
  have hall : ∀ u ∈ a.units ++ [units], u = 0 := by
    intro u hu
    rcases List.mem_append.1 hu with hu | hu
    · exact h.units u hu
    · rw [List.mem_singleton] at hu
      rw [hu, hzero]
  cases hpaid with
  | ongoing hne =>
      exact absurd (by rw [hzero, h.fundedAmount, h.releasedAmount hunits.2, add_zero]) hne
  | @final state releasedAmount overrideNonce _ hstate =>
      have hnotCreated : state ≠ .created := by
        rcases hstate with hs | hs <;> simp [hs]
      refine ⟨h.fundedAmount, fun hs => absurd hs hnotCreated, ?_, h.milestones, h.inflows, ?_,
        fun hs => absurd hs hnotCreated, ?_⟩
      · rintro (hs' | hs') <;> rcases hstate with hs | hs <;> simp [hs] at hs'
      · rw [hlegs, h.outflows, List.append_nil]
      · simpa [Account.units] using hall

/-- Funding a created record fills its pot. -/
theorem Account.Unfunded.funded (h : a.Unfunded e) (hwf : WellFormed current e)
    (hstate : e.state = .created) (hrange : totalAmount e.assets ≤ i128Max) :
    Account.Funded { a with
      record := some { e with fundedAmount := totalAmount e.assets, state := .funded }
      inflows := a.inflows ++ depositLegs id e.sender e.assets }
      { e with fundedAmount := totalAmount e.assets, state := .funded } := by
  have hpos := totalAmount_pos hwf.nonempty hwf.amount_pos
  have hpayouts := h.payouts hstate
  exact {
    fundedAmount := rfl
    range := fun _ => hrange
    notCreated := by simp
    deposited := fun _ => by
      unfold Account.deposited
      rw [h.inflows, List.nil_append]
      exact tally_depositLegs
    paidOut := fun asset => by simp [Account.paidOut, Account.units, h.outflows, hpayouts]
    outflow := by simp [h.outflows]
    payout := by simp [hpayouts]
    spent_le := by simpa [Account.spent, Account.units, hpayouts] using hpos.le
    spent_open := fun _ => by
      simp [Account.spent, Account.units, Account.released, hpayouts, h.milestones,
        h.releasedAmount hstate]
    spent_final := fun hfinal => absurd (.inl rfl) hfinal
    phased := by simp [h.milestones]
    progress := by simp [h.milestones] }

theorem Account.Funded.paid {payee : Address} {units : ℤ} {legs : List Leg}
    (h : a.Funded e) (hwf : WellFormed current e) (hms : a.milestones = none)
    (hreason : Reason now call id e payee units) (hpaid : Paid e units e')
    (hsends : Sends id e payee units legs) :
    Account.Funded ⟨some e', a.milestones, a.inflows, a.outflows ++ legs,
      a.payouts ++ [⟨id, payee, units⟩]⟩ e' := by
  have hopen : e.state.IsOpen := by
    cases hreason with
    | instalment hs => exact .inl hs
    | claimRest hs => exact .inl (hs.resolve_right h.notCreated).1
    | settle hs => exact .inl hs
    | giveBack hs => exact hs.imp_right fun hs => hs.resolve_right h.notCreated
  have hspent : a.spent = e.releasedAmount := by
    rw [h.spent_open hopen]
    simp [Account.released, hms]
  have hpos := h.fundedAmount_pos hwf
  obtain ⟨hunits, hle⟩ := hreason.units_bounds hpos.le (by rw [← hspent]; exact h.spent_le)
  rw [hsends.eq hunits]
  have hlegs : ∀ l ∈ shareLegs id payee e.fundedAmount units e.assets,
      0 ≤ l.amount ∧ l.party = payee := fun l hl => ⟨(shareLegs_mem hl).2.2.le, (shareLegs_mem hl).2.1⟩
  have hshare : ∀ asset, tally (·.amount) (·.asset = asset)
      (shareLegs id payee e.fundedAmount units e.assets)
      = share (amountOf e.assets asset) e.fundedAmount units :=
    fun asset => tally_shareLegs hwf.amount_pos hwf.nodup hpos hunits
  cases hpaid with
  | ongoing hne =>
      refine h.extend ⟨rfl, rfl, rfl, rfl, rfl⟩ h.notCreated rfl rfl rfl rfl hreason.payee hlegs
        hshare hunits (by rw [hspent]; exact hle) ?_ ?_ (by simp [hms])
      · intro _
        rw [hspent]
        simp [Account.released, hms]
      · intro hfinal
        exact absurd hopen hfinal
  | final heq hstate =>
      refine h.extend ⟨rfl, rfl, rfl, rfl, rfl⟩ ?_ rfl rfl rfl rfl hreason.payee hlegs hshare
        hunits (by rw [hspent]; exact hle) ?_ ?_ (by simp [hms])
      · rcases hstate with hs | hs <;> simp [hs]
      · rintro (hs' | hs') <;> rcases hstate with hs | hs <;> simp [hs] at hs'
      · intro _
        rw [hspent, heq]

/-- What a milestone approval pays is never negative and stays within what is
left; the last one pays exactly that. -/
theorem milestonePayout_bounds {set : MilestoneSet} {i : ℕ} {m : Milestone} {asset : AssetAmount}
    (hassets : e.assets = [asset]) (hamount : e.fundedAmount = asset.amount)
    (hpos : 0 < e.fundedAmount) (hprogress : Progress e.fundedAmount set)
    (hreleased : set.releasedAmount ≤ e.fundedAmount) (hm : set.milestones[i]? = some m)
    (hpending : m.status = .pending) :
    0 ≤ milestonePayout e set m ∧
      set.releasedAmount + milestonePayout e set m ≤ e.fundedAmount ∧
      (set.milestones.countP (·.status ≠ .completed) = 1 →
        set.releasedAmount + milestonePayout e set m = e.fundedAmount) ∧
      (set.milestones.countP (·.status ≠ .completed) ≠ 1 →
        (set.releasedAmount + milestonePayout e set m) * 10000 ≤
          e.fundedAmount * completedBps (set.milestones.set i { m with status := .completed })) := by
  have htotal : totalAmount e.assets = e.fundedAmount := by
    rw [hassets, hamount]
    simp [totalAmount]
  have hnotDone : m.status ≠ .completed := by
    rw [hpending]
    decide
  unfold milestonePayout
  rw [htotal]
  split
  · rename_i hlast
    refine ⟨by linarith, by linarith, fun _ => by ring, fun hne => absurd hlast hne⟩
  · rename_i hnotLast
    have hbps : (0 : ℤ) ≤ m.releaseBps := Int.natCast_nonneg _
    have hgross : (e.fundedAmount * m.releaseBps).tdiv 10000
        = share e.fundedAmount 10000 m.releaseBps :=
      Int.tdiv_eq_ediv_of_nonneg (mul_nonneg hpos.le hbps)
    have hfloor : share e.fundedAmount 10000 m.releaseBps * 10000
        ≤ e.fundedAmount * m.releaseBps := share_mul_le (by norm_num)
    have hcompleted := completedBps_complete hm hnotDone
    have hweights : completedBps (set.milestones.set i { m with status := .completed }) ≤ 10000 := by
      rw [← hprogress.weights, ← weights_set hm]
      exact completedBps_le
    have hstep : (set.releasedAmount + share e.fundedAmount 10000 m.releaseBps) * 10000 ≤
        e.fundedAmount * completedBps (set.milestones.set i { m with status := .completed }) := by
      rw [hcompleted, mul_add, add_mul]
      linarith [hprogress.released_le]
    rw [hgross]
    refine ⟨share_nonneg hpos.le (by norm_num) hbps, ?_, fun hlast => absurd hlast hnotLast,
      fun _ => hstep⟩
    have hcap := mul_le_mul_of_nonneg_left hweights hpos.le
    linarith

theorem Account.Funded.approved {set : MilestoneSet} {i : ℕ} {m : Milestone}
    {primary : AssetAmount} (h : a.Funded e) (hwf : WellFormed current e)
    (hset : a.milestones = some set) (hstate : e.state = .funded)
    (hm : set.milestones[i]? = some m) (hpending : m.status = .pending)
    (hprimary : e.assets.head? = some primary)
    (he' : e' = if (set.milestones.set i { m with status := .completed }).all
        (·.status = .completed) then
      { e with
        releasedAmount := set.releasedAmount + milestonePayout e set m
        state := .released } else e) :
    Account.Funded ⟨some e', some { set with
        milestones := set.milestones.set i { m with status := .completed }
        releasedAmount := set.releasedAmount + milestonePayout e set m },
      a.inflows, a.outflows ++ [⟨id, primary.asset, e.recipient, milestonePayout e set m⟩],
      a.payouts ++ [⟨id, e.recipient, milestonePayout e set m⟩]⟩ e' := by
  have hopen : e.state.IsOpen := .inl hstate
  obtain ⟨⟨asset, hassets⟩, _⟩ := h.phased set hset
  have hasset : asset = primary := by
    rw [hassets, List.head?_cons, Option.some.injEq] at hprimary
    exact hprimary
  subst hasset
  have hamount : e.fundedAmount = asset.amount := by
    rw [h.fundedAmount, hassets]
    simp [totalAmount]
  have hpos := h.fundedAmount_pos hwf
  have hspent : a.spent = set.releasedAmount := by
    rw [h.spent_open hopen]
    simp [Account.released, hset]
  have hprogress := h.progress set hset hopen
  obtain ⟨hnonneg, hle, hlast, hnotLast⟩ := milestonePayout_bounds hassets hamount hpos hprogress
    (by rw [← hspent]; exact h.spent_le) hm hpending
  have hnotDone : m.status ≠ .completed := by
    rw [hpending]
    decide
  have hiff := all_completed_iff hm hnotDone
  -- the one asset is the whole pot, so a payout's share of it is the payout
  have hshare : ∀ x, tally (·.amount) (·.asset = x)
      [(⟨id, asset.asset, e.recipient, milestonePayout e set m⟩ : Leg)]
      = share (amountOf e.assets x) e.fundedAmount (milestonePayout e set m) := by
    intro x
    rw [hassets]
    simp only [amountOf, tally_cons, tally_nil, add_zero]
    split
    · rw [← hamount, share_whole hpos]
    · simp [share]
  have hsome : (some set).isSome = a.milestones.isSome := by rw [hset]
  by_cases hall : (set.milestones.set i { m with status := .completed }).all (·.status = .completed)
  · rw [if_pos hall] at he'
    subst he'
    refine h.extend ⟨rfl, rfl, rfl, rfl, rfl⟩ (by simp) rfl rfl rfl hsome (.inl rfl) (by simpa)
      hshare hnonneg (by rw [hspent]; exact hle) ?_ ?_ ?_
    · rintro (hs | hs) <;> cases hs
    · intro _
      rw [hspent, hlast (hiff.1 hall)]
    · rintro _ _ (hs | hs) <;> cases hs
  · rw [if_neg hall] at he'
    subst he'
    refine h.extend ⟨rfl, rfl, rfl, rfl, rfl⟩ h.notCreated rfl rfl rfl hsome (.inl rfl) (by simpa)
      hshare hnonneg (by rw [hspent]; exact hle) ?_ ?_ ?_
    · intro _
      rw [hspent]
      rfl
    · intro hfinal
      exact absurd hopen hfinal
    · rintro _ hset' _
      cases hset'
      exact ⟨hprogress.live, (weights_set hm).trans hprogress.weights,
        hnotLast fun hone => hall (hiff.2 hone)⟩

theorem Account.Funded.cancelled {set : MilestoneSet} {milestones : List Milestone}
    {legs : List Leg} (h : a.Funded e) (hwf : WellFormed current e)
    (hset : a.milestones = some set) (hstate : e.state = .funded ∨ e.state = .expired)
    (hsends : Sends id e e.sender (e.fundedAmount - set.releasedAmount) legs)
    (he' : e' = { e with state := .refunded }) :
    Account.Funded ⟨some e', some { set with milestones, cancelled := true }, a.inflows,
      a.outflows ++ legs, a.payouts ++ [⟨id, e.sender, e.fundedAmount - set.releasedAmount⟩]⟩
      e' := by
  subst he'
  have hpos := h.fundedAmount_pos hwf
  have hspent : a.spent = set.releasedAmount := by
    rw [h.spent_open hstate]
    simp [Account.released, hset]
  have hle := h.spent_le
  rw [hspent] at hle
  have hunits : 0 ≤ e.fundedAmount - set.releasedAmount := by linarith
  rw [hsends.eq hunits]
  refine h.extend ⟨rfl, rfl, rfl, rfl, rfl⟩ (by simp) rfl rfl rfl (by rw [hset]; rfl) (.inr rfl)
    (fun l hl => ⟨(shareLegs_mem hl).2.2.le, (shareLegs_mem hl).2.1⟩)
    (fun asset => tally_shareLegs hwf.amount_pos hwf.nodup hpos hunits) hunits ?_ ?_ ?_ ?_
  · rw [hspent]
    linarith
  · rintro (hs | hs) <;> cases hs
  · intro _
    rw [hspent]
    ring
  · rintro _ _ (hs | hs) <;> cases hs

/-- A record that was created and funded in one call. -/
theorem WellFormed.sound_opened {e : Escrow} (hwf : WellFormed current e)
    (hstate : e.state = .funded) (hamount : e.fundedAmount = totalAmount e.assets)
    (hrange : e.fundedAmount ≤ i128Max) (hreleased : e.releasedAmount = 0) :
    Account.Sound current ⟨some e, none, depositLegs id e.sender e.assets, [], []⟩ := by
  have hpos := totalAmount_pos hwf.nonempty hwf.amount_pos
  rw [← hamount] at hpos
  exact .inr ⟨e, rfl, hwf, .inr {
    fundedAmount := hamount
    range := fun _ => hrange
    notCreated := by simp [hstate]
    deposited := fun _ => tally_depositLegs
    paidOut := fun _ => rfl
    outflow := by simp
    payout := by simp
    spent_le := hpos.le
    spent_open := fun _ => hreleased.symm
    spent_final := fun hfinal => absurd (.inl hstate) hfinal
    phased := by simp
    progress := by simp }⟩

/-- A record that was created and funded with a milestone schedule. -/
theorem WellFormed.sound_phased {e : Escrow} {asset : AssetAmount} {set : MilestoneSet}
    (hwf : WellFormed current e) (hstate : e.state = .funded) (hassets : e.assets = [asset])
    (hamount : e.fundedAmount = asset.amount) (hschedule : e.schedule.releaseType = .none)
    (hpending : ∀ m ∈ set.milestones, m.status = .pending) (hzero : set.releasedAmount = 0)
    (hweights : (set.milestones.map fun m => (m.releaseBps : ℤ)).sum = 10000)
    (hlive : set.cancelled = false) :
    Account.Sound current ⟨some e, some set, depositLegs id e.sender e.assets, [], []⟩ := by
  have htotal : e.fundedAmount = totalAmount e.assets := by
    rw [hassets, hamount]
    simp [totalAmount]
  have hpos := totalAmount_pos hwf.nonempty hwf.amount_pos
  rw [← htotal] at hpos
  have hnone : completedBps set.milestones = 0 := by
    refine tally_eq_zero ?_
    intro m hm
    rw [hpending m hm]
    decide
  have hprogress : Progress e.fundedAmount set := ⟨hlive, hweights, by rw [hzero, hnone]; simp⟩
  exact .inr ⟨e, rfl, hwf, .inr {
    fundedAmount := htotal
    range := by simp
    notCreated := by simp [hstate]
    deposited := fun _ => tally_depositLegs
    paidOut := fun _ => rfl
    outflow := by simp
    payout := by simp
    spent_le := hpos.le
    spent_open := fun _ => hzero.symm
    spent_final := fun hfinal => absurd (.inl hstate) hfinal
    phased := fun _ _ => ⟨⟨asset, hassets⟩, hschedule⟩
    progress := by
      rintro _ ⟨⟩ _
      exact hprogress }⟩

/-- **Every step of an account keeps its books.** -/
theorem Account.Step.sound (hstep : Account.Step current now call id a a')
    (h : a.Sound current) : a'.Sound current := by
  cases hstep with
  | opened hwf hstate hamount hrange hreleased =>
      exact hwf.sound_opened hstate hamount hrange hreleased
  | phased hwf hstate hassets hamount _ hschedule hpending hzero hweights hlive =>
      exact hwf.sound_phased hstate hassets hamount hschedule hpending hzero hweights hlive
  | @recorded e hwf hstate hamount hreleased =>
      refine .inr ⟨e, rfl, hwf, .inl ?_⟩
      constructor <;> simp [hamount, hreleased, EscrowState.IsOpen, hstate, Account.units]
  | funded he hstate hrange =>
      obtain ⟨hwf, hbooks⟩ := h.books he
      have hun := hbooks.resolve_right fun hf => hf.notCreated hstate
      exact .inr ⟨_, rfl, ⟨hwf.sender_ne, hwf.recipient_ne, hwf.nonempty, hwf.amount_pos, hwf.nodup⟩,
        .inr (hun.funded hwf hstate hrange)⟩
  | @paid _ e e' payee units legs he hms hreason hpaid hsends =>
      obtain ⟨hwf, hbooks⟩ := h.books he
      have hwf' : WellFormed current e' := by
        cases hpaid <;> exact hwf.congr ⟨rfl, rfl, rfl, rfl, rfl⟩
      refine .inr ⟨e', rfl, hwf', ?_⟩
      rcases hbooks with hun | hfunded
      · exact .inl (hun.paid hreason hpaid hsends)
      · exact .inr (hfunded.paid hwf hms hreason hpaid hsends)
  | expired he hstate =>
      obtain ⟨hwf, hbooks⟩ := h.books he
      have hfunded := hbooks.resolve_left fun hun => hun.notOpen (.inl hstate)
      refine .inr ⟨_, rfl, hwf.congr ⟨rfl, rfl, rfl, rfl, rfl⟩, .inr ?_⟩
      exact hfunded.restate ⟨rfl, rfl, rfl, rfl, rfl⟩ (by simp) rfl rfl rfl rfl
        (by simp [EscrowState.IsOpen, hstate]) (fun _ => rfl)
        fun set hset _ => hfunded.progress set hset (.inl hstate)
  | closed he hstate =>
      obtain ⟨hwf, hbooks⟩ := h.books he
      refine .inr ⟨_, rfl, hwf.congr ⟨rfl, rfl, rfl, rfl, rfl⟩, ?_⟩
      rcases hbooks with hun | hfunded
      · exact .inl ⟨hun.fundedAmount, by simp, by simp [EscrowState.IsOpen], hun.milestones,
          hun.inflows, hun.outflows, by simp, hun.units⟩
      · refine .inr (hfunded.restate ⟨rfl, rfl, rfl, rfl, rfl⟩ (by simp) rfl rfl rfl rfl ?_
          (fun _ => rfl) (by simp [EscrowState.IsOpen]))
        rcases hstate with hs | hs <;> simp [EscrowState.IsOpen, hs]
  | approved he hset hlive hstate hm hpending hprimary =>
      obtain ⟨hwf, hbooks⟩ := h.books he
      have hfunded := hbooks.resolve_left fun hun => hun.notOpen (.inl hstate)
      refine .inr ⟨_, rfl, hwf.congr ?_, .inr (hfunded.approved hwf hset hstate hm hpending hprimary rfl)⟩
      split <;> exact ⟨rfl, rfl, rfl, rfl, rfl⟩
  | @marked _ e set i m status he hstate hset hlive hm hnotDone hstatus =>
      obtain ⟨hwf, hbooks⟩ := h.books he
      have hfunded := hbooks.resolve_left fun hun => hun.notOpen (.inl hstate)
      have hprogress := hfunded.progress set hset (.inl hstate)
      refine .inr ⟨e, he, hwf, .inr ?_⟩
      refine hfunded.restate ⟨rfl, rfl, rfl, rfl, rfl⟩ hfunded.notCreated rfl rfl rfl
        (by rw [hset]; rfl) Iff.rfl (fun _ => by simp [Account.released, hset]) ?_
      rintro _ ⟨⟩ _
      refine ⟨hprogress.live, (weights_set hm).trans hprogress.weights, ?_⟩
      rw [completedBps_mark hm hnotDone hstatus]
      exact hprogress.released_le
  | cancelled he hset hlive hstate hsends =>
      obtain ⟨hwf, hbooks⟩ := h.books he
      have hfunded := hbooks.resolve_left fun hun => hun.notOpen hstate
      exact .inr ⟨_, rfl, hwf.congr ⟨rfl, rfl, rfl, rfl, rfl⟩,
        .inr (hfunded.cancelled hwf hset hstate hsends rfl)⟩

end Steps

/-! ## Reachable states -/

variable {World : Type} {H : EscrowHost World} {s s' : State World}

/-- A state whose accounts are all sound, and whose counter is ahead of them. -/
structure Consistent (H : EscrowHost World) (s : State World) : Prop where
  unused : Unused s
  sound : ∀ id, (s.account id).Sound H.self

/-- The record of an account is well formed and its books add up. -/
theorem Consistent.books (h : Consistent H s) {id : ℕ} {e : Escrow} (he : s.escrow id = some e) :
    WellFormed H.self e ∧ ((s.account id).Unfunded e ∨ (s.account id).Funded e) :=
  (h.sound id).books he

theorem Consistent.nonempty (h : Consistent H s) {id : ℕ} {e : Escrow}
    (he : s.escrow id = some e) : e.assets ≠ [] :=
  (h.books he).1.nonempty

/-- One step of a run touches one account at most. -/
theorem Consistent.step (h : Consistent H s) {i : Inputs H} (hstep : Step H i s s') :
    (∀ j, s'.account j = s.account j) ∧ s'.getCount = s.getCount ∧
        s'.inflows = s.inflows ∧ s'.outflows = s.outflows ∧
        (∀ asset, H.custody s.world asset ≤ H.custody s'.world asset) ∨
      ∃ env call id, i = .invoke env call ∧ Touches H env.timestamp call s s' id := by
  cases i with
  | invoke env call =>
      rcases exec_touches h.unused (fun _ _ he => h.nonempty he) hstep with hquiet | ⟨id, htouches⟩
      · refine .inl ⟨hquiet.account, hquiet.count, hquiet.inflows, hquiet.outflows, ?_⟩
        rw [hquiet.world]
        exact fun _ => le_rfl
      · exact .inr ⟨env, call, id, rfl, htouches⟩
  | outside time w =>
      obtain ⟨hcustody, rfl⟩ := hstep
      exact .inl ⟨fun _ => rfl, rfl, rfl, rfl, hcustody⟩

/-- One step of a run is a step of the account of `id`, or leaves it alone. -/
theorem Consistent.account_step (h : Consistent H s) {i : Inputs H} (hstep : Step H i s s')
    (id : ℕ) : s'.account id = s.account id ∨ ∃ env call, i = .invoke env call ∧
      Account.Step H.self env.timestamp call id (s.account id) (s'.account id) := by
  rcases h.step hstep with ⟨haccount, _⟩ | ⟨env, call, id', rfl, htouches⟩
  · exact .inl (haccount id)
  · by_cases hid : id = id'
    · subst hid
      exact .inr ⟨env, call, rfl, htouches.step⟩
    · exact .inl (htouches.others id hid)

/-- A step keeps the terms of a funded escrow. -/
theorem Consistent.terms (h : Consistent H s) {id : ℕ} {e : Escrow} (he : s.escrow id = some e)
    (hstate : e.state ≠ .created) {i : Inputs H} (hstep : Step H i s s') :
    ∃ e', s'.escrow id = some e' ∧ SameTerms e e' ∧ e'.state ≠ .created := by
  rcases h.account_step hstep id with haccount | ⟨_, _, _, hstep⟩
  · exact ⟨e, (congrArg Account.record haccount).trans he, ⟨rfl, rfl, rfl, rfl, rfl⟩, hstate⟩
  · exact hstep.terms he hstate

/-- A step gives no escrow milestones that was opened without. -/
theorem Consistent.unphased (h : Consistent H s) {id : ℕ} {e : Escrow}
    (he : s.escrow id = some e) (hnone : s.milestones id = none) {i : Inputs H}
    (hstep : Step H i s s') : s'.milestones id = none := by
  rcases h.account_step hstep id with haccount | ⟨_, _, _, hstep⟩
  · exact (congrArg Account.milestones haccount).trans hnone
  · exact hstep.unphased he hnone

theorem Fresh.account (h : Fresh H s) (id : ℕ) : s.account id = .blank := by
  simp [State.account, Account.blank, h.escrow, h.milestones, h.inflows, h.outflows, h.payouts]

theorem Fresh.consistent (h : Fresh H s) : Consistent H s :=
  ⟨fun j _ => h.account j, fun id => .inl (h.account id)⟩

theorem Consistent.preserved (h : Consistent H s) {i : Inputs H} (hstep : Step H i s s') :
    Consistent H s' := by
  constructor
  · intro j hj
    rcases h.step hstep with ⟨haccount, hcount, _⟩ | ⟨env, call, id, _, htouches⟩
    · rw [hcount] at hj
      rw [haccount j]
      exact h.unused j hj
    · have hne : j ≠ id := by
        rintro rfl
        exact absurd htouches.id_le (not_le.2 hj)
      rw [htouches.others j hne]
      exact h.unused j (htouches.count.trans_lt hj)
  · intro j
    rcases h.account_step hstep j with haccount | ⟨_, _, _, haccount⟩
    · rw [haccount]
      exact h.sound j
    · exact haccount.sound (h.sound j)

/-- **Every reachable state has sound books.** -/
theorem Reachable.consistent (h : Reachable H s) : Consistent H s :=
  Machine.Reachable.invariant (M := machine H) (fun _ => Fresh.consistent)
    (fun _ _ _ hc hstep => hc.preserved hstep) h

/-- **The invariant rule for one escrow, with the clock.**  What holds of a blank
account, survives the passing of time and is kept by every allowed step of this
escrow's account holds along every run. -/
theorem account_history {allow : Inputs H → State World → Prop}
    {tr : List (Entry (State World) (Inputs H))} {t : ℕ} (id : ℕ) {P : ℕ → Account → Prop}
    (hblank : ∀ t, P t .blank)
    (hlater : ∀ t t' a, a.Sound H.self → t ≤ t' → P t a → P t' a)
    (hstep : ∀ env call s a', Consistent H s → P env.timestamp.toNat (s.account id) →
      allow (.invoke env call) s →
      Account.Step H.self env.timestamp call id (s.account id) a' → P env.timestamp.toNat a')
    (hpath : (machine H).Path allow tr s t) : P t (s.account id) := by
  have hboth : Consistent H s ∧ P t (s.account id) := by
    refine hpath.history (P := fun _ s t => Consistent H s ∧ P t (s.account id)) ?_ ?_
    · intro s t hfresh
      rw [hfresh.account]
      exact ⟨hfresh.consistent, hblank t⟩
    · rintro tr s t i s' _ ⟨hc, hp⟩ ht hallow hs
      refine ⟨hc.preserved hs, ?_⟩
      have hp' := hlater t _ _ (hc.sound id) ht hp
      rcases hc.account_step hs id with haccount | ⟨env, call, rfl, haccount⟩
      · rw [haccount]
        exact hp'
      · exact hstep env call s _ hc hp' hallow haccount
  exact hboth.2

/-- **The invariant rule for one escrow.** -/
theorem account_invariant {allow : Inputs H → State World → Prop}
    {tr : List (Entry (State World) (Inputs H))} {t : ℕ} (id : ℕ) {P : Account → Prop}
    (hblank : P .blank)
    (hstep : ∀ env call s a', Consistent H s → P (s.account id) → allow (.invoke env call) s →
      Account.Step H.self env.timestamp call id (s.account id) a' → P a')
    (hpath : (machine H).Path allow tr s t) : P (s.account id) :=
  account_history id (fun _ => hblank) (fun _ _ _ _ _ hp => hp) hstep hpath

/-- What came in and did not go out, of one asset, over all escrows. -/
def State.owed (s : State World) (asset : Address) : ℤ :=
  tally (·.amount) (·.asset = asset) s.inflows - tally (·.amount) (·.asset = asset) s.outflows

/-- Every log entry belongs to an id within the counter. -/
theorem Unused.log_le (h : Unused s) :
    (∀ l ∈ s.inflows, l.escrow ∈ Finset.range (s.getCount + 1)) ∧
      ∀ l ∈ s.outflows, l.escrow ∈ Finset.range (s.getCount + 1) := by
  -- an entry of an unused id would be in the log of a blank account
  have hused : ∀ (log : List Leg) (l : Leg), l ∈ log →
      (s.getCount < l.escrow → log.filter (·.escrow = l.escrow) = []) →
      l.escrow ∈ Finset.range (s.getCount + 1) := by
    intro log l hl hempty
    rw [Finset.mem_range, Nat.lt_succ_iff]
    by_contra hlt
    have hmem : l ∈ log.filter (·.escrow = l.escrow) := List.mem_filter.2 ⟨hl, by simp⟩
    rw [hempty (not_le.1 hlt)] at hmem
    cases hmem
  constructor
  · intro l hl
    exact hused s.inflows l hl fun hlt => congrArg Account.inflows (h l.escrow hlt)
  · intro l hl
    exact hused s.outflows l hl fun hlt => congrArg Account.outflows (h l.escrow hlt)

/-- What is owed in total is what each escrow is owed, added up. -/
theorem Consistent.sum_owed (h : Consistent H s) (asset : Address) :
    ∑ id ∈ Finset.range (s.getCount + 1),
      ((s.account id).deposited asset - (s.account id).paidOut asset) = s.owed asset := by
  obtain ⟨hin, hout⟩ := h.unused.log_le
  rw [Finset.sum_sub_distrib]
  unfold State.owed
  rw [← sum_tally_key (·.escrow) _ hin, ← sum_tally_key (·.escrow) _ hout]
  simp only [Account.deposited, Account.paidOut, State.account, tally_filter]

/-- The outflow log of one escrow only ever names non-negative amounts. -/
theorem Account.Sound.outflow_nonneg {current : Address} {a : Account} (h : a.Sound current) :
    ∀ l ∈ a.outflows, 0 ≤ l.amount := by
  rcases h with rfl | ⟨e, _, _, hun | hfunded⟩
  · simp [Account.blank]
  · simp [hun.outflows]
  · exact fun l hl => (hfunded.outflow l hl).1

/-- A step changes custody by at least what it changes in what is owed. -/
theorem Consistent.custody_step (hx : H.Exact) (h : Consistent H s) {i : Inputs H}
    (hstep : Step H i s s') (hle : ∀ asset, s.owed asset ≤ H.custody s.world asset)
    (asset : Address) : s'.owed asset ≤ H.custody s'.world asset := by
  have h' := h.preserved hstep
  rcases h.step hstep with ⟨_, _, hin, hout, hcustody⟩ | ⟨env, call, id, _, htouches⟩
  · have howed : s'.owed asset = s.owed asset := by
      unfold State.owed
      rw [hin, hout]
    rw [howed]
    exact (hle asset).trans (hcustody asset)
  · obtain ⟨ins, outs, htraffic, hin, hout, _, houts⟩ := htouches.traffic
    have hnonneg : ∀ l ∈ outs, 0 ≤ l.amount := by
      intro l hl
      refine (h'.sound id).outflow_nonneg l ?_
      change l ∈ s'.outflows.filter _
      rw [List.mem_filter, hout]
      exact ⟨List.mem_append_right _ hl, decide_eq_true (houts l hl)⟩
    have hmoved := htraffic.custody hx hnonneg asset
    have hbefore := hle asset
    unfold State.owed at hbefore ⊢
    rw [hin, hout, tally_append, tally_append]
    linarith

/-- **Custody covers what is owed**, in every reachable state. -/
theorem Reachable.custody (hx : H.Exact) (h : Reachable H s) (asset : Address) :
    s.owed asset ≤ H.custody s.world asset := by
  have hboth : Consistent H s ∧ ∀ asset, s.owed asset ≤ H.custody s.world asset := by
    refine Machine.Reachable.invariant (M := machine H)
      (P := fun s => Consistent H s ∧ ∀ asset, s.owed asset ≤ H.custody s.world asset) ?_ ?_ h
    · intro s hfresh
      refine ⟨hfresh.consistent, ?_⟩
      intro asset
      simp only [State.owed, hfresh.inflows, hfresh.outflows, tally_nil, sub_zero]
      exact hfresh.custody asset
    · rintro i s s' ⟨hc, hle⟩ hstep
      exact ⟨hc.preserved hstep, hc.custody_step hx hstep hle⟩
  exact hboth.2 asset

end EscrowContract
end Astroid
