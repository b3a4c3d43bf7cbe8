import Astroid.Escrow.Accounting

/-!
# Nothing is stranded, unless an instalment was rounded

A partial payout is split over the listed assets by floor division, and what one
call rounds away no later call pays.  So a final escrow has paid out the whole
of every asset exactly when no instalment was rounded (`settled_exact_iff`).  An
escrow of one asset never rounds, and the last instalment rounds only if an
earlier one did; what can round are the instalments the recipient takes through
`withdraw` and `claim`.
-/

namespace Astroid
namespace EscrowContract

open Tally ProRata

variable {World : Type} {H : EscrowHost World} {s : State World}

/-- The states an escrow ends in. -/
def EscrowState.IsFinal (state : EscrowState) : Prop :=
  state = .released ∨ state = .refunded ∨ state = .closed

/-- If escrow `id` is final, the recipient and the sender together have received
everything that was deposited for it. -/
def NothingStranded (s : State World) (id : ℕ) : Prop :=
  ∀ e, s.escrow id = some e → e.state.IsFinal → ∀ a ∈ e.assets,
    (s.account id).paidTo e.recipient a.asset + (s.account id).paidTo e.sender a.asset
      = (s.account id).deposited a.asset

/-- `units` of this escrow are worth a whole amount of every asset it lists. -/
def WholeShares (e : Escrow) (units : ℤ) : Prop :=
  ∀ a ∈ e.assets, e.fundedAmount ∣ a.amount * units

instance (e : Escrow) (units : ℤ) : Decidable (WholeShares e units) :=
  inferInstanceAs (Decidable (∀ a ∈ e.assets, _))

/-- A `withdraw` or `claim` of escrow `id` takes a number of units that is worth
a whole amount of every listed asset. -/
def TakesWholeShares (id : ℕ) (now : UInt64) (s : State World) : Call → Prop
  | .withdraw _ id' amount => id' = id → ∀ e, s.escrow id = some e → WholeShares e amount
  | .claim _ id' => id' = id → ∀ e, s.escrow id = some e →
      ∀ units, calculateClaimableAmount e now = .ok units → WholeShares e units
  | _ => True

/-- The runs in which every payout the recipient of `id` takes is unrounded. -/
def wholeShares (id : ℕ) : Inputs H → State World → Prop
  | .invoke env call, s => TakesWholeShares id env.timestamp s call
  | .outside _ _, _ => True

/-! ## What a final account has paid -/

section Settled

variable {current : Address} {a : Account} {e : Escrow}

/-- The payouts of an account are to its recipient and its sender. -/
theorem Account.Funded.paidTo_add (h : a.Funded e) (hwf : WellFormed current e) (asset : Address) :
    a.paidTo e.recipient asset + a.paidTo e.sender asset = a.paidOut asset := by
  unfold Account.paidTo Account.paidOut
  symm
  apply tally_split
  · intro l hl
    have hparty := (h.outflow l hl).2
    tauto
  · rintro l hl ⟨_, hrecipient⟩ ⟨_, hsender⟩
    exact hwf.recipient_ne (hrecipient.symm.trans hsender)

theorem dvd_amountOf {fundedAmount units : ℤ} {assets : List AssetAmount}
    (h : ∀ a ∈ assets, fundedAmount ∣ a.amount * units) (asset : Address) :
    fundedAmount ∣ amountOf assets asset * units := by
  induction assets with
  | nil => simp [amountOf]
  | cons b rest ih =>
      rw [List.forall_mem_cons] at h
      have hrest := ih h.2
      unfold amountOf at hrest ⊢
      rw [tally_cons, add_mul]
      by_cases hb : b.asset = asset
      · rw [if_pos hb]
        exact dvd_add h.1 hrest
      · rw [if_neg hb, zero_mul, zero_add]
        exact hrest

/-- **A final account is empty exactly when no instalment was rounded.** -/
theorem settled_exact_iff (h : a.Funded e) (hwf : WellFormed current e)
    (hfinal : ¬ e.state.IsOpen) (asset : Address) :
    a.paidOut asset = a.deposited asset ↔
      ∀ u ∈ a.units, e.fundedAmount ∣ amountOf e.assets asset * u := by
  have hsettled : (h.pot hwf).Settled := h.spent_final hfinal
  rw [← h.pot_paid hwf, h.deposited]
  exact (h.pot hwf).paid_eq_holding_iff hsettled asset

end Settled

/-! ## Instalments that are never rounded -/

/-- No instalment of the account was rounded. -/
def Account.Even (a : Account) : Prop :=
  ∀ e, a.record = some e → ∀ asset, ∀ u ∈ a.units, e.fundedAmount ∣ amountOf e.assets asset * u

section Even

variable {current : Address} {now : UInt64} {call : Call} {id : ℕ} {a a' : Account}
  {e e' : Escrow}

/-- One more unrounded instalment, on the same terms. -/
theorem Account.Even.snoc {payee : Address} {units : ℤ} (h : a.Even) (he : a.record = some e)
    (hrecord : a'.record = some e') (hterms : SameTerms e e')
    (hpay : a'.payouts = a.payouts ++ [⟨id, payee, units⟩])
    (hunits : ∀ asset, e.fundedAmount ∣ amountOf e.assets asset * units) : a'.Even := by
  intro e₁ he₁ asset u hu
  rw [hrecord] at he₁
  cases he₁
  rw [hterms.fundedAmount, hterms.assets]
  have hmem : u ∈ a.units ++ [units] := by
    have hunits' : a'.units = a.units ++ [units] := by simp [Account.units, hpay]
    rwa [hunits'] at hu
  rcases List.mem_append.1 hmem with hu | hu
  · exact h e he asset u hu
  · rw [List.mem_singleton] at hu
    rw [hu]
    exact hunits asset

/-- Restating the record on the same terms rounds nothing. -/
theorem Account.Even.restate (h : a.Even) (he : a.record = some e) (hrecord : a'.record = some e')
    (hterms : SameTerms e e') (hpay : a'.payouts = a.payouts) : a'.Even := by
  intro e₁ he₁ asset u hu
  rw [hrecord] at he₁
  cases he₁
  rw [hterms.fundedAmount, hterms.assets]
  refine h e he asset u ?_
  unfold Account.units at hu ⊢
  rwa [hpay] at hu

/-- A milestone escrow lists one asset, which is the whole pot. -/
theorem Account.Funded.dvd_of_phased {set : MilestoneSet} (h : a.Funded e)
    (hset : a.milestones = some set) (asset : Address) (units : ℤ) :
    e.fundedAmount ∣ amountOf e.assets asset * units := by
  obtain ⟨⟨single, hassets⟩, _⟩ := h.phased set hset
  have hamount : e.fundedAmount = single.amount := by
    rw [h.fundedAmount, hassets]
    simp [totalAmount]
  refine dvd_amountOf ?_ asset
  intro b hb
  rw [hassets, List.mem_singleton] at hb
  rw [hb, hamount]
  exact dvd_mul_right _ _

/-- The rest of an account that rounded nothing is not rounded either. -/
theorem Account.Funded.dvd_rest (h : a.Funded e) (hwf : WellFormed current e) (heven : a.Even)
    (he : a.record = some e) (hopen : e.state.IsOpen) (asset : Address) :
    e.fundedAmount ∣ amountOf e.assets asset * (e.fundedAmount - a.released e) := by
  have hleft := (h.pot hwf).dvd_left (heven e he asset)
  have hrest : (h.pot hwf).left = e.fundedAmount - a.released e := by
    show e.fundedAmount - a.spent = _
    rw [h.spent_open hopen]
  rwa [hrest] at hleft

/-- **An allowed step rounds nothing.** -/
theorem Account.Step.even {World : Type} {s : State World}
    (hstep : Account.Step current now call id (s.account id) a')
    (hsound : (s.account id).Sound current) (heven : (s.account id).Even)
    (hwhole : TakesWholeShares id now s call) : a'.Even := by
  generalize hacc : s.account id = acc at hstep hsound heven
  cases hstep with
  | opened =>
      intro e _ asset u hu
      cases hu
  | phased =>
      intro e _ asset u hu
      cases hu
  | recorded =>
      intro e _ asset u hu
      cases hu
  | funded he hstate =>
      intro e₁ _ asset u hu
      have hun := (hsound.books he).2.resolve_right fun hf => hf.notCreated hstate
      have hnone : acc.units = [] := by simp [Account.units, hun.payouts hstate]
      have hmem : u ∈ acc.units := hu
      rw [hnone] at hmem
      cases hmem
  | @paid _ e e' payee units legs he hms hreason hpaid hsends =>
      have hterms : SameTerms e e' := by
        cases hpaid <;> exact ⟨rfl, rfl, rfl, rfl, rfl⟩
      refine heven.snoc he rfl hterms rfl ?_
      intro asset
      obtain ⟨hwf, hun | hfunded⟩ := hsound.books he
      · -- a record that was never funded pays no units
        have hzero := (hun.paid hreason hpaid hsends).units units (by simp [Account.units])
        rw [hzero, mul_zero]
        exact dvd_zero _
      · have hrest : e.state.IsOpen →
            e.fundedAmount ∣ amountOf e.assets asset * (e.fundedAmount - e.releasedAmount) := by
          intro hopen
          have h := hfunded.dvd_rest hwf heven he hopen asset
          simpa only [Account.released, hms] using h
        have he' : s.escrow id = some e := (congrArg Account.record hacc).trans he
        cases hreason with
        | instalment _ _ _ hcall _ =>
            apply dvd_amountOf
            rcases hcall with rfl | ⟨rfl, hclaim⟩
            · exact hwhole rfl e he'
            · exact hwhole rfl e he' units hclaim
        | claimRest hs => exact hrest (.inl (hs.resolve_right hfunded.notCreated).1)
        | settle hs => exact hrest (.inl hs)
        | giveBack hs =>
            exact hrest (hs.imp_right fun hs => hs.resolve_right hfunded.notCreated)
  | expired he => exact heven.restate he rfl ⟨rfl, rfl, rfl, rfl, rfl⟩ rfl
  | closed he => exact heven.restate he rfl ⟨rfl, rfl, rfl, rfl, rfl⟩ rfl
  | approved he hset _ hstate =>
      have hfunded := (hsound.books he).2.resolve_left fun hun => hun.notOpen (.inl hstate)
      refine heven.snoc he rfl ?_ rfl fun asset => hfunded.dvd_of_phased hset asset _
      split <;> exact ⟨rfl, rfl, rfl, rfl, rfl⟩
  | marked he => exact heven.restate he he ⟨rfl, rfl, rfl, rfl, rfl⟩ rfl
  | cancelled he hset _ hstate =>
      have hfunded := (hsound.books he).2.resolve_left fun hun => hun.notOpen hstate
      exact heven.snoc he rfl ⟨rfl, rfl, rfl, rfl, rfl⟩ rfl
        fun asset => hfunded.dvd_of_phased hset asset _

end Even

/-- Account 1 holds 5 of the tokens `contract 7` and `contract 8`. -/
def twoTokens : Ledger := fun asset holder =>
  if (asset = .contract 7 ∨ asset = .contract 8) ∧ holder = .account 1 then 5 else 0

theorem twoTokens_fresh : Fresh referenceHost (deployed twoTokens) := by
  apply deployed_fresh
  intro asset
  simp [twoTokens]

/-- A matured escrow of `amount` of both tokens, taken in two instalments. -/
def twoInstalments (amount units : ℤ) : Script Call :=
  opening [7, 8] ++
    [(signedBy 5 [1], .createTimelock (.account 1) (.account 2) (.account 3)
        [⟨.contract 7, amount⟩, ⟨.contract 8, amount⟩] 50),
      (signedBy 50 [2], .withdraw (.account 2) 1 units),
      (signedBy 60 [2], .withdraw (.account 2) 1 units)]

end EscrowContract
end Astroid
