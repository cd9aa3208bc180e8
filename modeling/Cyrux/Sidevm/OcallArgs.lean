import Mathlib

/-!
# Arguments of ocalls

`crates/sidevm/env/src/args_stack.rs`
-/

namespace Cyrux.OcallArgs

variable {w : ℕ}

/-! ## Stacks -/

def ocallNArgs : ℕ := 4

inductive Shape
  | unit
  | word
  | pair (a b : Shape)

namespace Shape

abbrev Value (w : ℕ) : Shape → Type
  | unit => Unit
  | word => BitVec w
  | pair a b => a.Value w × b.Value w

def nArgs : Shape → ℕ
  | unit => 0
  | word => 1
  | pair a b => a.nArgs + b.nArgs

def load : (s : Shape) → List (BitVec w) → Option (s.Value w × List (BitVec w))
  | unit, buf => some ((), buf)
  | word, buf =>
    match buf with
    | [] => none
    | me :: buf => some (me, buf)
  | pair a b, buf => do
    let (y, buf) ← b.load buf
    let (x, buf) ← a.load buf
    some ((x, y), buf)

def dump : (s : Shape) → s.Value w → List (BitVec w)
  | unit, _ => List.replicate ocallNArgs 0
  | word, me => me :: List.replicate (ocallNArgs - 1) 0
  | pair a b, (x, y) =>
    (b.dump y).take b.nArgs ++ (a.dump x).take a.nArgs ++
      List.replicate (ocallNArgs - (a.nArgs + b.nArgs)) 0

def words : (s : Shape) → s.Value w → List (BitVec w)
  | unit, _ => []
  | word, me => [me]
  | pair a b, (x, y) => b.words y ++ a.words x

theorem length_words (s : Shape) (v : s.Value w) : (s.words v).length = s.nArgs := by
  induction s with
  | unit => rfl
  | word => rfl
  | pair a b iha ihb => rw [words, List.length_append, iha, ihb, nArgs, Nat.add_comm]

theorem dump_eq (s : Shape) (v : s.Value w) (h : s.nArgs ≤ ocallNArgs) :
    s.dump v = s.words v ++ List.replicate (ocallNArgs - s.nArgs) 0 := by
  induction s with
  | unit => rfl
  | word => rfl
  | pair a b iha ihb =>
    have ha : a.nArgs ≤ ocallNArgs := Nat.le_trans (Nat.le_add_right _ _) h
    have hb : b.nArgs ≤ ocallNArgs := Nat.le_trans (Nat.le_add_left _ _) h
    rw [dump, iha v.1 ha, ihb v.2 hb, words, nArgs, List.take_left' (length_words b v.2),
      List.take_left' (length_words a v.1)]

theorem load_words (s : Shape) (v : s.Value w) (rest : List (BitVec w)) :
    s.load (s.words v ++ rest) = some (v, rest) := by
  induction s generalizing rest with
  | unit => rfl
  | word => rfl
  | pair a b iha ihb =>
    rw [words, List.append_assoc, load, ihb]
    simp only [Option.bind_eq_bind, Option.bind_some]
    rw [iha]
    rfl

end Shape

/-! ## Memory -/

inductive OcallError
  | invalidAddress
  | invalidEncoding
  | invalidParameter
deriving DecidableEq

structure VmMemory where
  size : ℕ
  byte : ℕ → UInt8

namespace VmMemory

def bytes (vm : VmMemory) (addr len : ℕ) : List UInt8 :=
  (List.range len).map fun i => vm.byte (addr + i)

def sliceFromVm (vm : VmMemory) (ptr len : BitVec w) : Except OcallError (List UInt8) :=
  let offset := (ptr.signExtend 64).toNat
  let len := (len.signExtend 64).toNat
  if 2 ^ 64 ≤ offset + len then .error .invalidAddress
  else if vm.size < offset + len then .error .invalidAddress
  else .ok (vm.bytes offset len)

end VmMemory

/-! ## Conversion to `i32` -/

def boolToI32 (b : Bool) : BitVec 32 := if b then 1 else 0

def boolFromI32 (i : BitVec 32) : Except OcallError Bool :=
  if i = 0 then .ok false else if i = 1 then .ok true else .error .invalidEncoding

def signedToI32 {n : ℕ} (v : BitVec n) : BitVec 32 := v.signExtend 32

def signedFromI32 (n : ℕ) (i : BitVec 32) : Except OcallError (BitVec n) :=
  if 2 ^ (n - 1) - 1 < i.toInt ∨ i.toInt < -(2 ^ (n - 1)) then .error .invalidEncoding
  else .ok (i.setWidth n)

def unsignedToI32 {n : ℕ} (v : BitVec n) : BitVec 32 := v.setWidth 32

def unsignedFromI32 (n : ℕ) (i : BitVec 32) : Except OcallError (BitVec n) :=
  if 2 ^ n - 1 < i.toNat then .error .invalidEncoding else .ok (i.setWidth n)

/-! ## Arguments -/

inductive ArgType
  | bytes
  | str
  | i8
  | i16
  | i32
  | i64
  | u8
  | u16
  | u32
  | u64
  | bool
deriving DecidableEq

namespace ArgType

abbrev Value : ArgType → Type
  | bytes => List UInt8
  | str => String
  | i8 | u8 => BitVec 8
  | i16 | u16 => BitVec 16
  | i32 | u32 => BitVec 32
  | i64 | u64 => BitVec 64
  | bool => Bool

def encoded : ArgType → Shape
  | bytes | str | i64 | u64 => .pair .word .word
  | _ => .word

end ArgType

def utf8 (s : String) : List UInt8 := s.toUTF8.data.toList

def fromUtf8 (data : List UInt8) : Except OcallError String :=
  match String.fromUTF8? ⟨data.toArray⟩ with
  | some s => .ok s
  | none => .error .invalidEncoding

def encodeSlice (w : ℕ) (addr : ℕ) (data : List UInt8) : BitVec w × BitVec w :=
  (BitVec.ofNat w data.length, BitVec.ofNat w addr)

def encode64 (w : ℕ) (v shifted : BitVec 64) : BitVec w × BitVec w :=
  ((v &&& 0xffffffff#64).setWidth w, (shifted &&& 0xffffffff#64).setWidth w)

def encodeI64 (w : ℕ) (v : BitVec 64) : BitVec w × BitVec w := encode64 w v (v.sshiftRight 32)

def encodeU64 (w : ℕ) (v : BitVec 64) : BitVec w × BitVec w := encode64 w v (v >>> 32)

def decode64 (x : BitVec w × BitVec w) : BitVec 64 :=
  let high := x.2.signExtend 64 <<< 32
  high &&& x.1.signExtend 64

def encodeArg (w : ℕ) (addr : ℕ) : (t : ArgType) → t.Value → t.encoded.Value w
  | .bytes, v => encodeSlice w addr v
  | .str, v => encodeSlice w addr (utf8 v)
  | .i8, v => (signedToI32 v).signExtend w
  | .i16, v => (signedToI32 v).signExtend w
  | .i32, v => v.signExtend w
  | .i64, v => encodeI64 w v
  | .u8, v => (unsignedToI32 v).signExtend w
  | .u16, v => (unsignedToI32 v).signExtend w
  | .u32, v => v.signExtend w
  | .u64, v => encodeU64 w v
  | .bool, v => (boolToI32 v).signExtend w

def decodeArg (vm : VmMemory) : (t : ArgType) → t.encoded.Value w → Except OcallError t.Value
  | .bytes, x => vm.sliceFromVm x.2 x.1
  | .str, x => do fromUtf8 (← vm.sliceFromVm x.2 x.1)
  | .i8, x => signedFromI32 8 (x.setWidth 32)
  | .i16, x => signedFromI32 16 (x.setWidth 32)
  | .i32, x => .ok (x.setWidth 32)
  | .i64, x => .ok (decode64 x)
  | .u8, x => unsignedFromI32 8 (x.setWidth 32)
  | .u16, x => unsignedFromI32 16 (x.setWidth 32)
  | .u32, x => .ok (x.setWidth 32)
  | .u64, x => .ok (decode64 x)
  | .bool, x => boolFromI32 (x.setWidth 32)

def stackShape : List ArgType → Shape
  | [] => .unit
  | t :: ts => .pair t.encoded (stackShape ts)

inductive Args : List ArgType → Type
  | empty : Args []
  | push {t : ArgType} {ts : List ArgType} (args : Args ts) (v : t.Value) (addr : ℕ) :
      Args (t :: ts)

abbrev Values : List ArgType → Type
  | [] => Unit
  | t :: ts => t.Value × Values ts

namespace Args

def stack (w : ℕ) : {ts : List ArgType} → Args ts → (stackShape ts).Value w
  | _, empty => ()
  | _, push (t := t) args v addr => (encodeArg w addr t v, args.stack w)

def values : {ts : List ArgType} → Args ts → Values ts
  | _, empty => ()
  | _, push args v _ => (v, args.values)

end Args

def popAll (vm : VmMemory) : (ts : List ArgType) → (stackShape ts).Value w →
    Except OcallError (Values ts)
  | [], _ => .ok ()
  | t :: ts, (x, stack) => do
    let v ← decodeArg vm t x
    let vs ← popAll vm ts stack
    .ok (v, vs)

def receive (vm : VmMemory) (ts : List ArgType) (raw : List (BitVec w)) :
    Except OcallError (Values ts) :=
  match (stackShape ts).load raw with
  | none => .error .invalidParameter
  | some (stack, _) => popAll vm ts stack

/-! ## Round trips of single arguments -/

theorem setWidth_signExtend_of_le {n : ℕ} (h : n ≤ w) (x : BitVec n) :
    (x.signExtend w).setWidth n = x := by
  apply BitVec.eq_of_getLsbD_eq
  intro i hi
  rw [BitVec.getLsbD_setWidth, BitVec.getLsbD_signExtend]
  simp [hi, Nat.lt_of_lt_of_le hi h]

theorem signedFromI32_toI32 {n : ℕ} (h : n ≤ 32) (v : BitVec n) :
    signedFromI32 n (signedToI32 v) = .ok v := by
  have hint : (v.signExtend 32).toInt = v.toInt := BitVec.toInt_signExtend_of_le h
  have hupper : v.toInt < 2 ^ (n - 1) := BitVec.toInt_lt
  have hlower : -(2 ^ (n - 1)) ≤ v.toInt := BitVec.le_toInt v
  unfold signedFromI32 signedToI32
  rw [hint, if_neg (by omega), setWidth_signExtend_of_le h]

theorem unsignedFromI32_toI32 {n : ℕ} (h : n ≤ 32) (v : BitVec n) :
    unsignedFromI32 n (unsignedToI32 v) = .ok v := by
  have hnat : (v.setWidth 32).toNat = v.toNat := BitVec.toNat_setWidth_of_le h
  unfold unsignedFromI32 unsignedToI32
  rw [hnat, if_neg (by omega), BitVec.setWidth_setWidth_of_le _ h, BitVec.setWidth_eq]

theorem boolFromI32_toI32 (b : Bool) : boolFromI32 (boolToI32 b) = .ok b := by
  cases b <;> rfl

theorem fromUtf8_utf8 (s : String) : fromUtf8 (utf8 s) = .ok s := by
  have hbytes : (⟨(utf8 s).toArray⟩ : ByteArray) = s.toByteArray := by
    unfold utf8
    simp
  unfold fromUtf8 String.fromUTF8?
  rw [hbytes, dif_pos s.isValidUTF8]
  rfl

def addressable (w : ℕ) : ℕ := if w = 64 then 2 ^ 64 else 2 ^ (w - 1)

theorem toNat_signExtend_ofNat {n : ℕ} (hw : w ≤ 64) (pos : 0 < w) (h : n < addressable w) :
    ((BitVec.ofNat w n).signExtend 64).toNat = n := by
  unfold addressable at h
  by_cases h64 : w = 64
  · subst h64
    rw [if_pos rfl] at h
    rw [BitVec.signExtend_eq, BitVec.toNat_ofNat, Nat.mod_eq_of_lt h]
  · rw [if_neg h64] at h
    have hpow : 2 ^ w = 2 * 2 ^ (w - 1) := by
      rw [← Nat.pow_succ', Nat.succ_eq_add_one, Nat.sub_add_cancel pos]
    have hmsb : (BitVec.ofNat w n).msb = false := by
      rw [BitVec.msb_eq_false_iff_two_mul_lt, BitVec.toNat_ofNat, Nat.mod_eq_of_lt (by omega)]
      omega
    rw [BitVec.signExtend_eq_setWidth_of_msb_false hmsb, BitVec.toNat_setWidth_of_le hw,
      BitVec.toNat_ofNat, Nat.mod_eq_of_lt (by omega)]

structure Located (w : ℕ) (vm : VmMemory) (addr : ℕ) (data : List UInt8) : Prop where
  content : vm.bytes addr data.length = data
  inside : addr + data.length ≤ vm.size
  addressable : addr + data.length < addressable w

theorem sliceFromVm_encodeSlice {vm : VmMemory} {addr : ℕ} {data : List UInt8} (hw : w ≤ 64)
    (pos : 0 < w) (h : Located w vm addr data) :
    vm.sliceFromVm (encodeSlice w addr data).2 (encodeSlice w addr data).1 = .ok data := by
  have hroom : addressable w ≤ 2 ^ 64 := by
    unfold addressable
    split_ifs
    · exact le_rfl
    · exact Nat.pow_le_pow_right (by decide) (by omega)
  have haddr := toNat_signExtend_ofNat hw pos (Nat.lt_of_le_of_lt (Nat.le_add_right _ _) h.3)
  have hlen := toNat_signExtend_ofNat hw pos (Nat.lt_of_le_of_lt (Nat.le_add_left _ _) h.3)
  have hinside := h.inside
  have hlt := h.addressable
  unfold VmMemory.sliceFromVm encodeSlice
  simp only [haddr, hlen]
  rw [if_neg (by omega), if_neg (by omega), h.content]

theorem signExtend_zero : (0#w).signExtend 64 = 0#64 := by
  have hmsb : (0#w).msb = false := BitVec.msb_zero
  rw [BitVec.signExtend_eq_setWidth_of_msb_false hmsb, BitVec.setWidth_zero]

theorem decode64_eq_iff (v shifted : BitVec 64) :
    decode64 (encode64 w v shifted) = v ↔ v = 0 := by
  -- a value whose low half is zero is decoded as zero
  have hzero : v &&& 0xffffffff#64 = 0 → decode64 (encode64 w v shifted) = 0 := by
    intro hlow
    unfold decode64 encode64
    simp only [hlow]
    show _ &&& BitVec.signExtend 64 (BitVec.setWidth w 0#64) = 0
    rw [BitVec.setWidth_zero, signExtend_zero]
    exact BitVec.and_zero
  constructor
  · intro heq
    -- the low half of what is decoded is that of a value shifted left
    have hlow : v &&& 0xffffffff#64 = 0 := by
      rw [← heq]
      unfold decode64
      apply BitVec.eq_of_getLsbD_eq
      intro i hi
      by_cases hi32 : i < 32
      · simp [BitVec.getLsbD_and, BitVec.getLsbD_shiftLeft, hi32]
      · have hmask : ∀ j : Fin 64, 32 ≤ j.val → (0xffffffff#64).getLsbD j.val = false := by decide
        have hi' := hmask ⟨i, hi⟩ (Nat.le_of_not_lt hi32)
        simp only [BitVec.getLsbD_and, hi', Bool.and_false]
        simp
    rw [← heq]
    exact hzero hlow
  · rintro rfl
    exact hzero BitVec.zero_and

/-! ## Round trips of calls -/

def Faithful (w : ℕ) (vm : VmMemory) (addr : ℕ) : (t : ArgType) → t.Value → Prop
  | .bytes, v => Located w vm addr v
  | .str, v => Located w vm addr (utf8 v)
  | .i64, v => v = 0
  | .u64, v => v = 0
  | _, _ => True

theorem decodeArg_encodeArg {vm : VmMemory} {addr : ℕ} (hw : w = 32 ∨ w = 64) {t : ArgType}
    {v : t.Value} (h : Faithful w vm addr t v) :
    decodeArg vm t (encodeArg w addr t v) = .ok v := by
  have h32 : 32 ≤ w := by omega
  have h64 : w ≤ 64 := by omega
  have pos : 0 < w := by omega
  cases t with
  | bytes => exact sliceFromVm_encodeSlice h64 pos h
  | str =>
    show (do fromUtf8 (← vm.sliceFromVm (encodeSlice w addr (utf8 v)).2
      (encodeSlice w addr (utf8 v)).1)) = _
    rw [sliceFromVm_encodeSlice h64 pos h]
    exact fromUtf8_utf8 v
  | i8 =>
    show signedFromI32 8 (((signedToI32 v).signExtend w).setWidth 32) = _
    rw [setWidth_signExtend_of_le h32]
    exact signedFromI32_toI32 (by decide) v
  | i16 =>
    show signedFromI32 16 (((signedToI32 v).signExtend w).setWidth 32) = _
    rw [setWidth_signExtend_of_le h32]
    exact signedFromI32_toI32 (by decide) v
  | i32 => exact congrArg Except.ok (setWidth_signExtend_of_le h32 v)
  | i64 => exact congrArg Except.ok ((decode64_eq_iff v _).mpr h)
  | u8 =>
    show unsignedFromI32 8 (((unsignedToI32 v).signExtend w).setWidth 32) = _
    rw [setWidth_signExtend_of_le h32]
    exact unsignedFromI32_toI32 (by decide) v
  | u16 =>
    show unsignedFromI32 16 (((unsignedToI32 v).signExtend w).setWidth 32) = _
    rw [setWidth_signExtend_of_le h32]
    exact unsignedFromI32_toI32 (by decide) v
  | u32 => exact congrArg Except.ok (setWidth_signExtend_of_le h32 v)
  | u64 => exact congrArg Except.ok ((decode64_eq_iff v _).mpr h)
  | bool =>
    show boolFromI32 (((boolToI32 v).signExtend w).setWidth 32) = _
    rw [setWidth_signExtend_of_le h32]
    exact boolFromI32_toI32 v

def Args.Faithful (w : ℕ) (vm : VmMemory) : {ts : List ArgType} → Args ts → Prop
  | _, .empty => True
  | _, .push (t := t) args v addr => OcallArgs.Faithful w vm addr t v ∧ args.Faithful w vm

theorem popAll_stack {vm : VmMemory} (hw : w = 32 ∨ w = 64) {ts : List ArgType} (args : Args ts)
    (h : args.Faithful w vm) : popAll vm ts (args.stack w) = .ok args.values := by
  induction args with
  | empty => rfl
  | push args v addr ih =>
    show (do
      let v ← decodeArg vm _ (encodeArg w addr _ v)
      let vs ← popAll vm _ (args.stack w)
      .ok (v, vs)) = _
    rw [decodeArg_encodeArg hw h.1, ih h.2]
    rfl

def hiMemory : VmMemory := ⟨64, fun i => if i = 16 then 104 else if i = 17 then 105 else 0⟩

end Cyrux.OcallArgs
