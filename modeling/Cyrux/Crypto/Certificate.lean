import Mathlib

/-!
# Certificate chains of queries

`crates/phactory/api/src/crypto.rs`
-/

namespace Cyrux.Crypto

abbrev Bytes := List UInt8

abbrev AccountId32 := Bytes

inductive SignatureType
  | ed25519
  | sr25519
  | ecdsa
  | ed25519WrapBytes
  | sr25519WrapBytes
  | ecdsaWrapBytes
  | eip712
  | evmEcdsa
  | evmEcdsaWrapBytes
deriving DecidableEq

def SignatureType.fromI32 : ℤ → Option SignatureType
  | 0 => some ed25519
  | 1 => some sr25519
  | 2 => some ecdsa
  | 3 => some ed25519WrapBytes
  | 4 => some sr25519WrapBytes
  | 5 => some ecdsaWrapBytes
  | 6 => some eip712
  | 7 => some evmEcdsa
  | 8 => some evmEcdsaWrapBytes
  | _ => none

mutual

inductive Signature
  | mk (signedBy : Option Certificate) (signatureType : ℤ) (signature : Bytes)

inductive Certificate
  | mk (encodedBody : Bytes) (signature : Option Signature)

end

structure CertificateBody where
  pubkey : Bytes
  ttl : ℕ
  configBits : ℕ
deriving DecidableEq

inductive MessageType
  | certificate (ttl : ℕ)
  | contractQuery
deriving DecidableEq

inductive SignatureVerifyError
  | invalidSignatureType
  | invalidSignature
  | certificateMissing
  | certificateExpired
  | tooLongCertificateChain
  | decodeFailed
  | invalidPublicKey
  | eip712EncodingError
deriving DecidableEq

/-! ## Signature schemes -/

structure Pair where
  publicKey : Bytes → Option Bytes
  signature : Bytes → Option Bytes
  verify : Bytes → Bytes → Bytes → Bool

def verify (T : Pair) (pubkey sig msg : Bytes) : Bool :=
  match T.publicKey pubkey with
  | none => false
  | some key =>
    match T.signature sig with
    | none => false
    | some signature => T.verify signature msg key

def recover (T : Pair) (pubkey sig msg : Bytes) : Except SignatureVerifyError Bytes :=
  match T.publicKey pubkey with
  | none => .error .invalidPublicKey
  | some key => if verify T pubkey sig msg then .ok key else .error .invalidSignature

def Pair.Valid (T : Pair) (pubkey sig msg key : Bytes) : Prop :=
  T.publicKey pubkey = some key ∧
    ∃ signature, T.signature sig = some signature ∧ T.verify signature msg key = true

theorem recover_eq_ok_iff (T : Pair) (pubkey sig msg key : Bytes) :
    recover T pubkey sig msg = .ok key ↔ T.Valid pubkey sig msg key := by
  unfold recover Pair.Valid verify
  cases T.publicKey pubkey with
  | none => simp
  | some key' =>
    cases T.signature sig with
    | none => simp
    | some signature =>
      by_cases hv : T.verify signature msg key' = true
      · simp only [hv, if_true, Except.ok.injEq, Option.some.injEq, exists_eq_left']
        exact ⟨fun h => ⟨h, h ▸ hv⟩, fun h => h.1⟩
      · simp only [hv, Option.some.injEq, exists_eq_left']
        constructor
        · intro h
          cases h
        · rintro ⟨rfl, h⟩
          exact absurd h hv

structure Schemes where
  ed25519 : Pair
  sr25519 : Pair
  ecdsa : Pair
  blake2 : Bytes → Bytes
  accountIdFromEvmPubkey : Bytes → AccountId32
  eip712Recover : Bytes → Bytes → Bytes → MessageType → Except SignatureVerifyError Bytes
  Eip712Valid : Bytes → Bytes → Bytes → MessageType → Bytes → Prop
  eip712Recover_eq_ok_iff : ∀ pubkey sig msg type key,
    eip712Recover pubkey sig msg type = .ok key ↔ Eip712Valid pubkey sig msg type key
  encode : CertificateBody → Bytes
  decode : Bytes → Option CertificateBody

def wrapBytes (msg : Bytes) : Bytes :=
  [60, 66, 121, 116, 101, 115, 62] ++ msg ++ [60, 47, 66, 121, 116, 101, 115, 62]

variable (S : Schemes)

def CertificateBody.recover (body : CertificateBody) (msg : Bytes) (msgType : MessageType)
    (sigType : SignatureType) (signature : Bytes) : Except SignatureVerifyError AccountId32 :=
  match sigType with
  | .ed25519 => Crypto.recover S.ed25519 body.pubkey signature msg
  | .sr25519 => Crypto.recover S.sr25519 body.pubkey signature msg
  | .ecdsa => S.blake2 <$> Crypto.recover S.ecdsa body.pubkey signature msg
  | .ed25519WrapBytes => Crypto.recover S.ed25519 body.pubkey signature (wrapBytes msg)
  | .sr25519WrapBytes => Crypto.recover S.sr25519 body.pubkey signature (wrapBytes msg)
  | .ecdsaWrapBytes => S.blake2 <$> Crypto.recover S.ecdsa body.pubkey signature (wrapBytes msg)
  | .eip712 => S.accountIdFromEvmPubkey <$> S.eip712Recover body.pubkey signature msg msgType
  | .evmEcdsa => S.accountIdFromEvmPubkey <$> Crypto.recover S.ecdsa body.pubkey signature msg
  | .evmEcdsaWrapBytes =>
    S.accountIdFromEvmPubkey <$> Crypto.recover S.ecdsa body.pubkey signature (wrapBytes msg)

def Signed (body : CertificateBody) (msg : Bytes) (msgType : MessageType) (sigType : SignatureType)
    (signature : Bytes) (account : AccountId32) : Prop :=
  match sigType with
  | .ed25519 => S.ed25519.Valid body.pubkey signature msg account
  | .sr25519 => S.sr25519.Valid body.pubkey signature msg account
  | .ecdsa => ∃ key, S.ecdsa.Valid body.pubkey signature msg key ∧ S.blake2 key = account
  | .ed25519WrapBytes => S.ed25519.Valid body.pubkey signature (wrapBytes msg) account
  | .sr25519WrapBytes => S.sr25519.Valid body.pubkey signature (wrapBytes msg) account
  | .ecdsaWrapBytes =>
    ∃ key, S.ecdsa.Valid body.pubkey signature (wrapBytes msg) key ∧ S.blake2 key = account
  | .eip712 => ∃ key, S.Eip712Valid body.pubkey signature msg msgType key ∧
      S.accountIdFromEvmPubkey key = account
  | .evmEcdsa => ∃ key, S.ecdsa.Valid body.pubkey signature msg key ∧
      S.accountIdFromEvmPubkey key = account
  | .evmEcdsaWrapBytes => ∃ key, S.ecdsa.Valid body.pubkey signature (wrapBytes msg) key ∧
      S.accountIdFromEvmPubkey key = account

theorem map_eq_ok_iff {f : Bytes → Bytes} {r : Except SignatureVerifyError Bytes} {b : Bytes} :
    f <$> r = .ok b ↔ ∃ a, r = .ok a ∧ f a = b := by
  cases r with
  | error e =>
    constructor
    · intro h
      cases h
    · rintro ⟨a, h, -⟩
      cases h
  | ok a =>
    constructor
    · intro h
      exact ⟨a, rfl, Except.ok.inj h⟩
    · rintro ⟨_, h, rfl⟩
      cases h
      rfl

theorem certificateRecover_eq_ok_iff (body : CertificateBody) (msg : Bytes) (msgType : MessageType)
    (sigType : SignatureType) (signature : Bytes) (account : AccountId32) :
    body.recover S msg msgType sigType signature = .ok account ↔
      Signed S body msg msgType sigType signature account := by
  cases sigType with
  | ed25519 => exact recover_eq_ok_iff _ _ _ _ _
  | sr25519 => exact recover_eq_ok_iff _ _ _ _ _
  | ed25519WrapBytes => exact recover_eq_ok_iff _ _ _ _ _
  | sr25519WrapBytes => exact recover_eq_ok_iff _ _ _ _ _
  | eip712 =>
    refine map_eq_ok_iff.trans (exists_congr fun key => ?_)
    rw [S.eip712Recover_eq_ok_iff]
  | _ =>
    refine map_eq_ok_iff.trans (exists_congr fun key => ?_)
    rw [recover_eq_ok_iff]

/-! ## Verification -/

def Signature.verify (currentBlock : ℕ) : Signature → Bytes → MessageType → ℕ →
    Except SignatureVerifyError (List AccountId32)
  | .mk signedBy signatureType signature, msg, msgType, maxDepth =>
    if maxDepth = 0 then .error .tooLongCertificateChain
    else
      match SignatureType.fromI32 signatureType with
      | none => .error .invalidSignatureType
      | some sigType =>
        match signedBy with
        | none => .error .certificateMissing
        | some (.mk encodedBody certSig) =>
          match S.decode encodedBody with
          | none => .error .decodeFailed
          | some body =>
            if body.ttl < currentBlock then .error .certificateExpired
            else
              match body.recover S msg msgType sigType signature with
              | .error e => .error e
              | .ok bodySigner =>
                match certSig with
                | none => .ok [bodySigner]
                | some certSig =>
                  match certSig.verify currentBlock (S.encode body) (.certificate body.ttl)
                    (maxDepth - 1) with
                  | .error e => .error e
                  | .ok signers => .ok (signers ++ [bodySigner])

structure Link where
  signatureType : ℤ
  signature : Bytes
  encodedBody : Bytes
  sigType : SignatureType
  body : CertificateBody
  account : AccountId32

inductive Chain : Signature → List Link → Prop
  | root (l : Link) :
      Chain (.mk (some (.mk l.encodedBody none)) l.signatureType l.signature) [l]
  | signed (l : Link) {certSig : Signature} {links : List Link} (rest : Chain certSig links) :
      Chain (.mk (some (.mk l.encodedBody (some certSig))) l.signatureType l.signature) (l :: links)

structure Link.Intact (currentBlock : ℕ) (l : Link) : Prop where
  known : SignatureType.fromI32 l.signatureType = some l.sigType
  decoded : S.decode l.encodedBody = some l.body
  alive : currentBlock ≤ l.body.ttl

def signedMessage (msg : Bytes) (msgType : MessageType) (links : List Link) :
    ℕ → Option (Bytes × MessageType)
  | 0 => some (msg, msgType)
  | i + 1 => links[i]?.map fun l => (S.encode l.body, .certificate l.body.ttl)

def AllSigned (msg : Bytes) (msgType : MessageType) (links : List Link) : Prop :=
  ∀ i l m, links[i]? = some l → signedMessage S msg msgType links i = some m →
    Signed S l.body m.1 m.2 l.sigType l.signature l.account

variable {S}

theorem allSigned_cons {msg : Bytes} {msgType : MessageType} {l : Link} {links : List Link} :
    AllSigned S msg msgType (l :: links) ↔
      Signed S l.body msg msgType l.sigType l.signature l.account ∧
        AllSigned S (S.encode l.body) (.certificate l.body.ttl) links := by
  constructor
  · intro h
    refine ⟨h 0 l (msg, msgType) rfl rfl, fun i l' m hl' hm => ?_⟩
    refine h (i + 1) l' m hl' ?_
    cases i with
    | zero => exact hm
    | succ i => exact hm
  · rintro ⟨hhead, htail⟩ i l' m hl' hm
    cases i with
    | zero =>
      cases hl'
      cases hm
      exact hhead
    | succ i =>
      refine htail i l' m hl' ?_
      cases i with
      | zero => exact hm
      | succ i => exact hm

def Accepts (S : Schemes) (currentBlock : ℕ) (sig : Signature) (msg : Bytes) (msgType : MessageType)
    (maxDepth : ℕ) (signers : List AccountId32) : Prop :=
  ∃ links : List Link, Chain sig links ∧ 1 ≤ links.length ∧ links.length ≤ maxDepth ∧
    (∀ l ∈ links, l.Intact S currentBlock) ∧ AllSigned S msg msgType links ∧
    signers = (links.map Link.account).reverse

section

variable {currentBlock maxDepth : ℕ} {st : ℤ} {sg msg : Bytes} {msgType : MessageType}
  {signers : List AccountId32}

theorem verify_zero (sig : Signature) :
    sig.verify S currentBlock msg msgType 0 = .error .tooLongCertificateChain := by
  cases sig
  unfold Signature.verify
  rw [if_pos rfl]

theorem verify_unsigned :
    (Signature.mk none st sg).verify S currentBlock msg msgType maxDepth ≠ .ok signers := by
  unfold Signature.verify
  split_ifs
  · exact nofun
  · cases SignatureType.fromI32 st <;> exact nofun

def Above (S : Schemes) (currentBlock : ℕ) (body : CertificateBody) (maxDepth : ℕ)
    (above : List AccountId32) : Option Signature → Prop
  | none => above = []
  | some certSig =>
    certSig.verify S currentBlock (S.encode body) (.certificate body.ttl) maxDepth = .ok above

theorem verify_succ_iff {encodedBody : Bytes} {certSig : Option Signature} :
    (Signature.mk (some (.mk encodedBody certSig)) st sg).verify S currentBlock msg msgType
        (maxDepth + 1) = .ok signers ↔
      ∃ sigType body signer above,
        (⟨st, sg, encodedBody, sigType, body, signer⟩ : Link).Intact S currentBlock ∧
        Signed S body msg msgType sigType sg signer ∧
        Above S currentBlock body maxDepth above certSig ∧ signers = above ++ [signer] := by
  unfold Signature.verify
  rw [if_neg (Nat.succ_ne_zero _)]
  constructor
  · intro h
    split at h
    · cases h
    rename_i sigType hknown
    simp only at h
    split at h
    · cases h
    rename_i body hdecoded
    split_ifs at h with hexpired
    split at h
    · cases h
    rename_i signer hrecovered
    refine ⟨sigType, body, signer, ?_⟩
    have hintact : (⟨st, sg, encodedBody, sigType, body, signer⟩ : Link).Intact S currentBlock :=
      ⟨hknown, hdecoded, Nat.le_of_not_lt hexpired⟩
    have hsigned := (certificateRecover_eq_ok_iff S _ _ _ _ _ _).mp hrecovered
    split at h
    · exact ⟨[], hintact, hsigned, rfl, (Except.ok.inj h).symm⟩
    · split at h
      · cases h
      rename_i above habove
      exact ⟨above, hintact, hsigned, habove, (Except.ok.inj h).symm⟩
  · rintro ⟨sigType, body, signer, above, hintact, hsigned, habove, rfl⟩
    have hrecovered := (certificateRecover_eq_ok_iff S _ _ _ _ _ _).mpr hsigned
    have hknown : SignatureType.fromI32 st = some sigType := hintact.known
    have hdecoded : S.decode encodedBody = some body := hintact.decoded
    have halive : ¬ body.ttl < currentBlock := Nat.not_lt.mpr hintact.alive
    simp only [hknown, hdecoded, halive, if_false, hrecovered]
    cases certSig with
    | none =>
      obtain rfl : above = [] := habove
      rfl
    | some certSig =>
      have habove' : certSig.verify S currentBlock (S.encode body) (.certificate body.ttl)
          maxDepth = .ok above := habove
      simp only [Nat.add_sub_cancel, habove']

theorem Chain.ne_nil {sig : Signature} {links : List Link} (h : Chain sig links) : links ≠ [] := by
  cases h <;> exact List.cons_ne_nil _ _

theorem verify_iff_accepts (sig : Signature) :
    sig.verify S currentBlock msg msgType maxDepth = .ok signers ↔
      Accepts S currentBlock sig msg msgType maxDepth signers := by
  -- induction on the depth: one certificate is checked, the rest of the chain has one level less
  induction maxDepth generalizing sig msg msgType signers with
  | zero =>
    rw [verify_zero]
    constructor
    · exact nofun
    · rintro ⟨links, -, hpos, hle, -⟩
      omega
  | succ maxDepth ih =>
    obtain ⟨signedBy, st, sg⟩ := sig
    cases signedBy with
    | none =>
      constructor
      · exact fun h => absurd h verify_unsigned
      · rintro ⟨links, hchain, -⟩
        cases hchain
    | some cert =>
      obtain ⟨encodedBody, certSig⟩ := cert
      rw [verify_succ_iff]
      constructor
      · rintro ⟨sigType, body, signer, above, hintact, hsigned, habove, rfl⟩
        cases certSig with
        | none =>
          obtain rfl : above = [] := habove
          refine ⟨_, Chain.root ⟨st, sg, encodedBody, sigType, body, signer⟩, le_rfl, ?_, ?_, ?_,
            rfl⟩
          · exact Nat.succ_le_succ (Nat.zero_le _)
          · simpa using hintact
          · exact allSigned_cons.mpr ⟨hsigned, fun i l m hl => by cases hl⟩
        | some certSig =>
          obtain ⟨links, hchain, -, hle, hall, hsig, rfl⟩ := (ih certSig).mp habove
          refine ⟨_, Chain.signed ⟨st, sg, encodedBody, sigType, body, signer⟩ hchain,
            ?_, ?_, ?_, ?_, ?_⟩
          · exact Nat.succ_le_succ (Nat.zero_le _)
          · exact Nat.succ_le_succ hle
          · exact List.forall_mem_cons.mpr ⟨hintact, hall⟩
          · exact allSigned_cons.mpr ⟨hsigned, hsig⟩
          · rw [List.map_cons, List.reverse_cons]
      · rintro ⟨links, hchain, -, hle, hall, hsig, rfl⟩
        cases hchain with
        | root l =>
          have hl := hall l List.mem_cons_self
          exact ⟨l.sigType, l.body, l.account, [], hl, (allSigned_cons.mp hsig).1, rfl, rfl⟩
        | signed l rest =>
          rename_i certSig links
          obtain ⟨hl, hrest⟩ := List.forall_mem_cons.mp hall
          obtain ⟨hhead, htail⟩ := allSigned_cons.mp hsig
          refine ⟨l.sigType, l.body, l.account, (links.map Link.account).reverse, hl, hhead, ?_, ?_⟩
          · refine (ih certSig).mpr ⟨links, rest, ?_, Nat.le_of_succ_le_succ hle, hrest, htail, rfl⟩
            exact List.length_pos_iff.mpr rest.ne_nil
          · rw [List.map_cons, List.reverse_cons]

end

/-- Which chains of certificates `Signature::verify` accepts. -/
theorem certificate_chains_verified (S : Schemes) (sig : Signature) (msg : Bytes)
    (msgType : MessageType) (currentBlock maxDepth : ℕ) (signers : List AccountId32) :
    sig.verify S currentBlock msg msgType maxDepth = .ok signers ↔
      ∃ links : List Link, Chain sig links ∧ 1 ≤ links.length ∧ links.length ≤ maxDepth ∧
        (∀ l ∈ links, SignatureType.fromI32 l.signatureType = some l.sigType ∧
          S.decode l.encodedBody = some l.body ∧ currentBlock ≤ l.body.ttl) ∧
        (∀ i l m, links[i]? = some l → signedMessage S msg msgType links i = some m →
          Signed S l.body m.1 m.2 l.sigType l.signature l.account) ∧
        signers = (links.map Link.account).reverse := by
  rw [verify_iff_accepts]
  unfold Accepts AllSigned
  refine exists_congr fun links => and_congr_right fun _ => and_congr_right fun _ =>
    and_congr_right fun _ => and_congr_left fun _ => forall₂_congr fun l _ => ?_
  exact ⟨fun h => ⟨h.known, h.decoded, h.alive⟩, fun h => ⟨h.1, h.2.1, h.2.2⟩⟩

end Cyrux.Crypto
