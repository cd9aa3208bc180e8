import Cyrux.Lib.Machine
import Cyrux.Lib.OrderedStore
import Cyrux.Lib.Proc

/-!
# The store of relay chain headers

`standalone/prb/src/headers_db.rs`
-/

namespace Cyrux.Prb

open Proc

abbrev Bytes := List UInt8

abbrev Key := List (Fin 256)

def encodeU32 (val : ℕ) : Key := bigEndian 4 val

def u32Max : ℕ := 2 ^ 32 - 1

section Headers

variable (H A : Type)

structure Header where
  number : ℕ
  parentHash : H
  scheduledChange : Option A
  number_lt : number < u32Max

structure HeaderToSync where
  header : Header H A
  justification : Option Bytes

abbrev HeadersToSync := List (HeaderToSync H A)

abbrev DB := OrderedStore Key (HeadersToSync H A)

structure Chain where
  hash : Header H A → H
  verifyWithPrevAuthoritySet : ℕ → A → Header H A → Bytes → Bool
  relaychainStartAt : ℕ
  startAuthoritySetId : ℕ

end Headers

inductive Panic
  | shouldHaveHeader
  | shouldHaveJustification
  | notMatch
  deriving DecidableEq

variable {H A : Type}

/-! ## The database -/

def linked [DecidableEq H] (c : Chain H A) (headers : HeadersToSync H A) : Bool :=
  (headers.zip headers.tail).all fun pair => c.hash pair.1.header = pair.2.header.parentHash

def verify [DecidableEq H] (c : Chain H A) (headers : HeadersToSync H A) (setId : ℕ)
    (authorities : Option A) (needVerify : Bool) : Except Panic (Option (ℕ × A)) :=
  match headers.getLast? with
  | none => .error .shouldHaveHeader
  | some last =>
    match last.header.scheduledChange with
    | none => .ok none
    | some nextAuthorities =>
      if ¬ needVerify then .ok (some (last.header.number, nextAuthorities))
      else if ¬ linked c headers then .ok none
      else match authorities with
        | none => .ok (some (last.header.number, nextAuthorities))
        | some authorities =>
          match last.justification with
          | none => .error .shouldHaveJustification
          | some justification =>
            if c.verifyWithPrevAuthoritySet setId authorities last.header justification then
              .ok (some (last.header.number, nextAuthorities))
            else .ok none

def validFrom [DecidableEq H] (c : Chain H A) (needVerify : Bool) :
    List (Key × HeadersToSync H A) → ℕ → ℕ → Option A → Except Panic (ℕ × ℕ × Option A)
  | [], nextNumber, setId, authorities => .ok (nextNumber, setId, authorities)
  | (_, headers) :: rest, nextNumber, setId, authorities =>
    match verify c headers setId authorities needVerify with
    | .error panic => .error panic
    | .ok none => .ok (nextNumber, setId, authorities)
    | .ok (some (lastNumber, nextAuthorities)) =>
      validFrom c needVerify rest (Unsigned.wrappingAdd 32 lastNumber 1) (setId + 1)
        (some nextAuthorities)

def findValidNum [DecidableEq H] (c : Chain H A) (db : DB H A) (startAt setId : ℕ)
    (needVerify : Bool) : Except Panic (ℕ × ℕ × Option A) :=
  validFrom c needVerify (db.iterFrom (encodeU32 startAt)) startAt setId none

def getCurrentPoint (db : DB H A) (num : ℕ) : Option (HeadersToSync H A) :=
  (db.iterFrom (encodeU32 num)).head?.map Prod.snd

def deleteTailHeaders (db : DB H A) : DB H A := db.delete (encodeU32 u32Max)

def deleteFrom (db : DB H A) (nextNumber : ℕ) : DB H A :=
  ((db.iterFrom (encodeU32 nextNumber)).map Prod.fst).foldl OrderedStore.delete db

def unjustified (headers : HeadersToSync H A) : HeadersToSync H A :=
  headers.map fun header => { header with justification := none }

def Contiguous (headers : HeadersToSync H A) : Prop :=
  headers.IsChain fun a b => Unsigned.wrappingAdd 32 a.header.number 1 = b.header.number

instance (headers : HeadersToSync H A) : Decidable (Contiguous headers) :=
  inferInstanceAs (Decidable (headers.IsChain _))

def batchKey (last : Header H A) (knownChaintip : ℕ) : Key :=
  if last.scheduledChange.isSome then encodeU32 last.number
  else if knownChaintip ≤ last.number then encodeU32 u32Max
  -- The node has answered with a batch that ends nowhere.
  else encodeU32 last.number

def putHeadersToDb (newHeaders : HeadersToSync H A) (knownChaintip : ℕ) :
    Proc (DB H A) Panic ℕ := do
  let first ← demand newHeaders.head? .shouldHaveHeader
  let db ← get
  let current := getCurrentPoint db first.header.number
  when (current.isSome) (alter deleteTailHeaders)
  let headers := unjustified (current.getD []) ++ newHeaders
  ensure (Contiguous headers) .notMatch
  let last ← demand headers.getLast? .shouldHaveHeader
  alter fun db => db.put (batchKey last.header knownChaintip) headers
  let _ ← demand last.justification .shouldHaveJustification
  pure last.header.number

/-! ## The repository -/

structure Repository (H A : Type) where
  headersDb : DB H A
  nextNumber : ℕ
  currentSetId : ℕ
  currentAuthorities : Option A

namespace Repository

abbrev Program (H A : Type) := Proc (Repository H A) Panic

def create (c : Chain H A) (headersDb : DB H A) : Repository H A :=
  ⟨headersDb, c.relaychainStartAt, c.startAuthoritySetId, none⟩

def onDb {α : Type} (m : Proc (DB H A) Panic α) : Program H A α :=
  focus headersDb (fun db r => { r with headersDb := db }) m

def restart [DecidableEq H] (c : Chain H A) (needVerify : Bool) : Program H A Unit := do
  alter fun r => { create c r.headersDb with headersDb := deleteTailHeaders r.headersDb }
  let r ← get
  match findValidNum c r.headersDb r.nextNumber r.currentSetId needVerify with
  | .error panic => throw panic
  | .ok (nextNumber, setId, authorities) =>
    alter fun r => ⟨deleteFrom r.headersDb nextNumber, nextNumber, setId, authorities⟩

def fillGap (headers : HeadersToSync H A) (potentialChaintip : ℕ) : Program H A Unit := do
  let last ← demand headers.getLast? .shouldHaveHeader
  let lastNumber ← onDb (putHeadersToDb headers potentialChaintip)
  alter fun r => { r with nextNumber := Unsigned.wrappingAdd 32 lastNumber 1 }
  when (last.header.scheduledChange.isSome) (alter fun r => { r with
    currentAuthorities := last.header.scheduledChange
    currentSetId := r.currentSetId + 1 })

end Repository

inductive Op (H A : Type)
  | restart (needVerify : Bool)
  | fillGap (headers : HeadersToSync H A) (potentialChaintip : ℕ)

def Op.run [DecidableEq H] (c : Chain H A) : Op H A → Repository.Program H A Unit
  | .restart needVerify => Repository.restart c needVerify
  | .fillGap headers potentialChaintip => Repository.fillGap headers potentialChaintip

end Cyrux.Prb
