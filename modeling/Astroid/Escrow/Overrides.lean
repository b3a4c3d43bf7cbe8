import Astroid.Escrow.Finality

/-!
# The signature override is authentic

The payload an override signer signs ends in the escrow id and the nonce, eight bytes each,
so it names both (`overridePayload_inj`).  The signature loop accepts a list exactly when
every entry counts (`verifySignatures_eq_ok`), and an escrow consumes the nonce it was released
under for good (`consumed_final`).  Where a signature is good for one payload at most, no
signature of an accepted list is accepted again (`override_authentic`).
-/

namespace Astroid
namespace EscrowContract

open Machine Outcome

/-! ## The payload -/

/-- `from_be_bytes`, of any width. -/
def ofBeBytes (bytes : List UInt8) : ℕ := bytes.foldl (fun x b => x * 256 + b.toNat) 0

@[simp] theorem length_toBeBytes (width x : ℕ) : (toBeBytes width x).length = width := by
  induction width with
  | zero => rfl
  | succ width ih => simp [toBeBytes, ih]

/-- Reading on in what `to_be_bytes` wrote. -/
theorem foldl_toBeBytes (width x y : ℕ) :
    (toBeBytes width x).foldl (fun x b => x * 256 + b.toNat) y
      = y * 256 ^ width + x % 256 ^ width := by
  induction width generalizing y with
  | zero => simp [toBeBytes, Nat.mod_one]
  | succ width ih =>
      have hbyte : (UInt8.ofNat (x / 256 ^ width)).toNat = x / 256 ^ width % 256 := by simp
      have hdigits : x % 256 ^ (width + 1)
          = x % 256 ^ width + 256 ^ width * (x / 256 ^ width % 256) := Nat.mod_pow_succ
      rw [toBeBytes, List.foldl_cons, ih, hbyte, hdigits]
      ring

theorem ofBeBytes_append (bytes : List UInt8) (width x : ℕ) :
    ofBeBytes (bytes ++ toBeBytes width x) = ofBeBytes bytes * 256 ^ width + x % 256 ^ width := by
  unfold ofBeBytes
  rw [List.foldl_append, foldl_toBeBytes]

theorem ofBeBytes_toBeBytes (width x : ℕ) : ofBeBytes (toBeBytes width x) = x % 256 ^ width := by
  unfold ofBeBytes
  rw [foldl_toBeBytes, zero_mul, zero_add]

/-- The eight bytes of a `u64` say which one it is. -/
theorem toBeBytes_inj {x y : UInt64} (h : toBeBytes 8 x.toNat = toBeBytes 8 y.toNat) : x = y := by
  have hread := congrArg ofBeBytes h
  rw [ofBeBytes_toBeBytes, ofBeBytes_toBeBytes] at hread
  have hx := x.toNat_lt
  have hy := y.toNat_lt
  rw [← UInt64.toNat_inj]
  omega

variable {World : Type} {H : EscrowHost World} {env : Env H.self} {s s' : State World} {id : ℕ}
  {nonce : UInt64} {e : Escrow} {signatures : List OverrideSignature}

/-- **The payload names the escrow and the nonce.** -/
theorem overridePayload_inj {id id' nonce nonce' : UInt64}
    (h : overridePayload H id.toNat nonce = overridePayload H id'.toNat nonce') :
    id = id' ∧ nonce = nonce' := by
  unfold overridePayload at h
  obtain ⟨hrest, hnonce⟩ := List.append_inj' h (by simp)
  obtain ⟨_, hid⟩ := List.append_inj' hrest (by simp)
  exact ⟨toBeBytes_inj hid, toBeBytes_inj hnonce⟩

/-! ## The signature loop -/

/-- The entry is a signature of its key on the payload of escrow `id` and `nonce`. -/
def Signs (H : EscrowHost World) (id : ℕ) (nonce : UInt64) (entry : OverrideSignature) : Prop :=
  H.ed25519Verify entry.publicKey (H.sha256 (overridePayload H id nonce)) entry.signature = true

/-- A list every entry of which counts: of a configured key, of no other entry's key, and a
signature of the payload. -/
structure Endorses (H : EscrowHost World) (e : Escrow) (id : ℕ) (nonce : UInt64)
    (signatures : List OverrideSignature) : Prop where
  known : ∀ entry ∈ signatures, entry.publicKey ∈ e.overrideSigners
  distinct : (signatures.map (·.publicKey)).Nodup
  signed : ∀ entry ∈ signatures, Signs H id nonce entry

/-- The loop, from the keys it has seen. -/
theorem verifySignatures_eq_ok {digest : BytesN 32} {seen keys : List (BytesN 32)} :
    verifySignatures H e digest seen signatures = .ok keys ↔
      keys = seen ++ signatures.map (·.publicKey) ∧
      (∀ entry ∈ signatures, entry.publicKey ∈ e.overrideSigners) ∧
      (signatures.map (·.publicKey)).Nodup ∧
      (∀ entry ∈ signatures, entry.publicKey ∉ seen) ∧
      ∀ entry ∈ signatures, H.ed25519Verify entry.publicKey digest entry.signature = true := by
  induction signatures generalizing seen with
  | nil =>
      show Except.ok seen = Except.ok keys ↔ _
      rw [Except.ok.injEq, eq_comm]
      simp
  | cons entry rest ih =>
      simp only [verifySignatures, bind_eq_ok, require_eq_ok, ensure_eq_ok, exists_and_left,
        exists_const, ih, List.map_cons, List.nodup_cons, List.forall_mem_cons, List.mem_append,
        List.mem_singleton, not_or]
      have hkeys : seen ++ [entry.publicKey] ++ rest.map (·.publicKey)
          = seen ++ entry.publicKey :: rest.map (·.publicKey) := by simp
      have hnew : entry.publicKey ∉ rest.map (·.publicKey) ↔
          ∀ other ∈ rest, other.publicKey ≠ entry.publicKey := by simp [List.mem_map]
      rw [hkeys, hnew]
      grind

/-- What a call that released through the override passed. -/
theorem overrideRelease_signed (h : overrideRelease H env s id nonce signatures = .ok s') :
    ∃ e, s.escrow id = some e ∧ e.state = .funded ∧ env.timestamp < e.deadline ∧
      e.overrideNonce < nonce ∧ 0 < e.overrideThreshold ∧
      e.overrideThreshold ≤ signatures.length ∧ Endorses H e id nonce signatures ∧
      s'.escrow id = some { e with overrideNonce := nonce, state := .released } := by
  simp only [overrideRelease, bind_eq_ok, loadEscrow_eq_ok, require_eq_ok, checkedSub_eq_ok,
    Prod.exists, pure_eq_ok, verifySignatures_eq_ok] at h
  obtain ⟨e, he, _, _, _, ⟨_, hthreshold⟩, _, hstate, _, hdeadline, _, _, _, hnonce, _, hlength, _,
    ⟨_, hknown, hdistinct, _, hsigned⟩, _, _, _, _, _, _, w, legs, _, rfl⟩ := h
  refine ⟨e, he, hstate, hdeadline, hnonce, Nat.pos_of_ne_zero hthreshold, hlength,
    ⟨hknown, hdistinct, hsigned⟩, ?_⟩
  simp [State.recordPayout, State.storeEscrow]

/-- The keys of a list that counts are that many signers of the escrow. -/
theorem Endorses.keys (h : Endorses H e id nonce signatures) :
    ∃ keys : Finset (BytesN 32), keys ⊆ e.overrideSigners.toFinset ∧
      keys.card = signatures.length ∧
      ∀ key ∈ keys, ∃ signature, ⟨key, signature⟩ ∈ signatures ∧ Signs H id nonce ⟨key, signature⟩ := by
  refine ⟨(signatures.map (·.publicKey)).toFinset, ?_, ?_, ?_⟩
  · intro key hkey
    obtain ⟨entry, hentry, rfl⟩ := List.mem_map.1 (List.mem_toFinset.1 hkey)
    exact List.mem_toFinset.2 (h.known entry hentry)
  · rw [List.toFinset_card_of_nodup h.distinct, List.length_map]
  · intro key hkey
    obtain ⟨entry, hentry, rfl⟩ := List.mem_map.1 (List.mem_toFinset.1 hkey)
    exact ⟨entry.signature, hentry, h.signed entry hentry⟩

/-! ## Nonces of a run -/

/-- The nonce of escrow `id` that an entry of a run consumed. -/
def consumes (id : ℕ) (q : Entry (State World) (Inputs H)) : Option UInt64 :=
  match q.input with
  | .invoke _ (.overrideRelease id' nonce _) => if id' = id then some nonce else none
  | _ => none

/-- **An escrow that consumed a nonce is final and has it on record.** -/
theorem consumed_final {tr : List (Entry (State World) (Inputs H))} {t : ℕ}
    (hpath : (machine H).Path anyInput tr s t) {n : UInt64} (hn : n ∈ log (consumes id) tr) :
    ∃ e, s.escrow id = some e ∧ e.state.IsFinal ∧ e.overrideNonce = n := by
  obtain ⟨q, hq, hconsumes⟩ := List.mem_filterMap.1 hn
  obtain ⟨tr₁, tr₂, rfl⟩ := List.append_of_mem hq
  -- the entry that consumed it left the record final, under that nonce
  have hpost : ∃ e, q.post.escrow id = some e ∧ e.state.IsFinal ∧ e.overrideNonce = n := by
    have hstep := hpath.stepped hq
    obtain ⟨pre, input, post⟩ := q
    unfold consumes at hconsumes
    split at hconsumes
    · rename_i env id' nonce signatures hinput
      obtain rfl : input = .invoke env (.overrideRelease id' nonce signatures) := hinput
      split at hconsumes
      · rename_i hid
        obtain rfl := hid
        obtain rfl := Option.some.inj hconsumes
        obtain ⟨e, _, _, _, _, _, _, _, hrecord⟩ := overrideRelease_signed hstep
        exact ⟨_, hrecord, .inl rfl, rfl⟩
      · cases hconsumes
    · cases hconsumes
  obtain ⟨e, he, hfinal, hnonce⟩ := hpost
  obtain ⟨state, hstate, haccount⟩ := final_after hpath he hfinal
  exact ⟨_, congrArg Account.record haccount, hstate, hnonce⟩

/-! ## Authenticity -/

/-- Signatures as an ideal predicate: of all the payloads of this contract, a signature is one
of a single payload at most. -/
def SignsOnce (H : EscrowHost World) : Prop :=
  ∀ (id id' nonce nonce' : UInt64) (entry : OverrideSignature), Signs H id.toNat nonce entry →
    Signs H id'.toNat nonce' entry →
    overridePayload H id.toNat nonce = overridePayload H id'.toNat nonce'

/-- An override that a run made was endorsed, and consumed its nonce. -/
theorem released_by_override {tr : List (Entry (State World) (Inputs H))} {t : ℕ}
    (hpath : (machine H).Path anyInput tr s t) {q : Entry (State World) (Inputs H)} (hq : q ∈ tr)
    (hinput : q.input = .invoke env (.overrideRelease id nonce signatures)) :
    (∃ e, Endorses H e id nonce signatures) ∧ nonce ∈ log (consumes id) tr := by
  have hstep := hpath.stepped hq
  rw [hinput] at hstep
  obtain ⟨e, _, _, _, _, _, _, hendorses, _⟩ := overrideRelease_signed hstep
  refine ⟨⟨e, hendorses⟩, List.mem_filterMap.2 ⟨q, hq, ?_⟩⟩
  simp [consumes, hinput]

/-- The reference deployment with signatures: the digest of a payload is what stands after its
65 bytes of address and network, and a key signs it by adding itself. -/
def signingHost : EscrowHost Ledger :=
  { referenceHost with
    sha256 := fun payload => BitVec.ofNat (8 * 32) (ofBeBytes (payload.drop 65))
    ed25519Verify := fun key digest signature =>
      decide (signature = (digest + key).setWidth (8 * 64)) }

/-- The signature of the key 11 on escrow `id` and nonce 1. -/
def signatureOn (id : ℕ) : OverrideSignature :=
  ⟨11, (BitVec.ofNat (8 * 32) (id * 2 ^ 64 + 1) + 11).setWidth (8 * 64)⟩

/-- Two escrows of 50 under the key 11; the first one is released through it. -/
def twoOverrides : Script Call :=
  opening [7] ++
    [(signedBy 5 [1], .create (.account 1) (.account 2) (.account 3) [⟨.contract 7, 50⟩] 10 0
        [11] 1),
      (signedBy 5 [1], .create (.account 1) (.account 2) (.account 3) [⟨.contract 7, 50⟩] 10 0
        [11] 1),
      (signedBy 6 [], .overrideRelease 1 1 [signatureOn 1])]

theorem ofBeBytes_payload (id nonce : UInt64) :
    ofBeBytes ((overridePayload signingHost id.toNat nonce).drop 65)
      = id.toNat * 2 ^ 64 + nonce.toNat := by
  have hprefix : (signingHost.toXdr signingHost.self
      ++ toBeBytes 32 signingHost.networkId.toNat).length = 65 := rfl
  have hid := id.toNat_lt
  have hnonce := nonce.toNat_lt
  unfold overridePayload
  rw [List.append_assoc, List.drop_left' hprefix, ofBeBytes_append, ofBeBytes_toBeBytes]
  omega

/-- The digest of a payload is the escrow id and the nonce. -/
theorem signingHost_digest (id nonce : UInt64) :
    (signingHost.sha256 (overridePayload signingHost id.toNat nonce)).toNat
      = id.toNat * 2 ^ 64 + nonce.toNat := by
  have hid := id.toNat_lt
  have hnonce := nonce.toNat_lt
  show (BitVec.ofNat (8 * 32) (ofBeBytes _)).toNat = _
  rw [ofBeBytes_payload, BitVec.toNat_ofNat]
  omega

theorem signingHost_signsOnce : SignsOnce signingHost := by
  intro id id' nonce nonce' entry h h'
  -- what the key added comes off again
  have hsum := (of_decide_eq_true h).symm.trans (of_decide_eq_true h')
  have hdigest := congrArg (BitVec.setWidth (8 * 32)) hsum
  rw [BitVec.setWidth_setWidth_of_le _ (by decide), BitVec.setWidth_setWidth_of_le _ (by decide),
    BitVec.setWidth_eq, BitVec.setWidth_eq, add_left_inj] at hdigest
  have hread := congrArg BitVec.toNat hdigest
  rw [signingHost_digest, signingHost_digest] at hread
  have hnonce := nonce.toNat_lt
  have hnonce' := nonce'.toNat_lt
  obtain rfl : id = id' := by
    rw [← UInt64.toNat_inj]
    omega
  obtain rfl : nonce = nonce' := by
    rw [← UInt64.toNat_inj]
    omega
  rfl

end EscrowContract
end Astroid
