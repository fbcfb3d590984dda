import Rtsrv.Config.Integers

/-!
# Rtsrv.Config.Switches — the loader of the switches (`client/src/switch_config.cpp`)

A switch is read with the helpers that the source of truth is read with.  Its port is checked as a 64-bit
integer, so that what is accepted is the number in the document: a number from 2^63 on has become negative by
then, and no other number changes.
-/

namespace Rtsrv.Config.Switches

open Lib Json

structure SwitchEntry where
  name : String
  ipv4 : String
  grpc_port : UInt16
  login : String
  password : String
  deriving DecidableEq, Repr

def SwitchEntry.target (sw : SwitchEntry) : String := sw.ipv4 ++ ":" ++ toString sw.grpc_port.toNat

def SwitchEntry.label (sw : SwitchEntry) : String := if sw.name.isEmpty then sw.target else sw.name

/-- `static_cast<int64_t>` of either kind of integer. -/
def castInt : Json → Option Int64
  | .int64 i => some i
  | .uint64 u => some u.toInt64
  | _ => none

def getInt (obj : Object) (key ctx : String) : Except String Int64 := do
  let field ← requireField obj key ctx
  match castInt field with
  | none => .error (ctx ++ ": field '" ++ key ++ "' must be an integer")
  | some i => .ok i

def parseEntry (elem : Object) (index : ℕ) : Except String SwitchEntry := do
  let ctx := "switches[" ++ toString index ++ "]"
  let ipv4 ← getString elem "ipv4" ctx
  let port ← getInt elem "grpc_port" ctx
  if port < 1 ∨ 65535 < port then
    .error (ctx ++ ": grpc_port " ++ toString port ++ " is out of range [1, 65535]")
  else do
    let login ← getString elem "login" ctx
    let password ← getString elem "password" ctx
    pure {
      name := getStringOpt elem "name"
      ipv4 := ipv4
      grpc_port := port.toUInt64.toUInt16
      login := login
      password := password }

/-- One round of the loop over the `switches` array. -/
def parseEntryAt (item : Json × ℕ) : Except String SwitchEntry := do
  let elemObj ← requireObject item.1
    ("switches[" ++ toString item.2 ++ "]: each element must be a JSON object")
  parseEntry elemObj item.2

/-- `loadSwitchConfig` from the parsed document on. -/
def switchConfig (path : String) (root : Json) : Except String (List SwitchEntry) := do
  let obj ← requireObject root ("'" ++ path ++ "': top-level value must be a JSON object")
  match ifContains obj "switches" with
  | none => .error ("'" ++ path ++ "': missing required top-level field 'switches'")
  | some switchesVal =>
    match switchesVal.ifArray with
    | none => .error ("'" ++ path ++ "': field 'switches' must be a JSON array")
    | some arr =>
      if arr.isEmpty then .error ("'" ++ path ++ "': 'switches' array must not be empty")
      else arr.zipIdx.mapM parseEntryAt

def loadSwitchConfig (files : Files) (path : String) : Except String (List SwitchEntry) := do
  let document ← readDocument files path
  switchConfig path document.root

/-! ### What is accepted -/

/-- The text of a field. -/
def textAt (v : Json) (key : String) : Option String := (v.member key).bind fun w => w.ifString.map cStr

/-- The element says the switch. -/
structure Says (v : Json) (sw : SwitchEntry) : Prop where
  object : v.ifObject ≠ none
  name : sw.name = (textAt v "name").getD ""
  ipv4 : textAt v "ipv4" = some sw.ipv4
  grpc_port : written v "grpc_port" = some (sw.grpc_port.toNat : ℤ)
  positive : 1 ≤ sw.grpc_port.toNat
  login : textAt v "login" = some sw.login
  password : textAt v "password" = some sw.password

theorem getString_ok {obj : Object} {key ctx s : String} :
    getString obj key ctx = .ok s ↔ textAt (.object obj) key = some s := by
  unfold getString requireField textAt
  rw [member_object]
  cases ifContains obj key with
  | none => simp
  | some v =>
    rw [ok_bind, Option.bind_some]
    cases v.ifString with
    | none => simp
    | some str => simp

theorem getStringOpt_eq (obj : Object) (key : String) :
    getStringOpt obj key = (textAt (.object obj) key).getD "" := by
  unfold getStringOpt textAt
  rw [member_object]
  cases ifContains obj key with
  | none => rfl
  | some v =>
    rw [Option.bind_some]
    dsimp only
    cases v.ifString with
    | none => rfl
    | some str => rfl

theorem getInt_ok {obj : Object} {key ctx : String} {i : Int64} :
    getInt obj key ctx = .ok i ↔ ((Json.object obj).member key).bind castInt = some i := by
  unfold getInt requireField
  rw [member_object]
  cases ifContains obj key with
  | none => simp
  | some v =>
    rw [ok_bind, Option.bind_some]
    cases castInt v with
    | none => simp
    | some j => simp

/-- A 64-bit integer in the range of a port is the number that is written. -/
theorem castInt_port {v : Json} {n : ℕ} (hn : n ≤ 65535) :
    (∃ i, castInt v = some i ∧ i.toInt = n) ↔ v.integer = some (n : ℤ) := by
  cases v with
  | int64 a => simp [castInt, integer]
  | uint64 u =>
    have hcast : u.toInt64.toInt = if 2 * u.toNat < 2 ^ 64 then (u.toNat : ℤ) else u.toNat - (2 ^ 64 : ℕ) :=
      BitVec.toInt_eq_toNat_cond u.toBitVec
    have hlt := u.toNat_lt
    simp only [castInt, integer, Option.some.injEq, exists_eq_left', hcast]
    split_ifs with hlow
    · rfl
    · omega
  | _ => simp [castInt, integer]

/-- The port that is taken over, and the number in the document. -/
theorem port_ok {v : Json} {p : UInt16} :
    (∃ port, (v.member "grpc_port").bind castInt = some port ∧ ¬(port < 1 ∨ 65535 < port) ∧
        port.toUInt64.toUInt16 = p) ↔
      written v "grpc_port" = some (p.toNat : ℤ) ∧ 1 ≤ p.toNat := by
  have hrange : ∀ port : Int64, ¬(port < 1 ∨ 65535 < port) ↔ 1 ≤ port.toInt ∧ port.toInt ≤ 65535 := by
    intro port
    rw [not_or, Int64.not_lt, Int64.not_lt, Int64.le_iff_toInt_le, Int64.le_iff_toInt_le]
    rfl
  have hnarrow : ∀ port : Int64, 1 ≤ port.toInt → port.toInt ≤ 65535 →
      (port.toUInt64.toUInt16.toNat : ℤ) = port.toInt := by
    intro port hlow hhigh
    have hpos : (0 : Int64) ≤ port := Int64.le_iff_toInt_le.mpr (Int.le_trans (by decide) hlow)
    have hint : (port.toNatClampNeg : ℤ) = port.toInt := Int.toNat_of_nonneg (by omega)
    rw [UInt64.toNat_toUInt16, Int64.toNat_toUInt64_of_le hpos]
    omega
  have hp := p.toNat_lt
  rw [written]
  rcases v.member "grpc_port" with _ | w
  · simp
  · rw [Option.bind_some, Option.bind_some, ← castInt_port (by omega)]
    constructor
    · rintro ⟨port, hport, hin, rfl⟩
      obtain ⟨hlow, hhigh⟩ := (hrange port).mp hin
      have hsame := hnarrow port hlow hhigh
      exact ⟨⟨port, hport, hsame.symm⟩, by omega⟩
    · rintro ⟨⟨port, hport, heq⟩, hpos⟩
      have hlow : 1 ≤ port.toInt := by omega
      have hhigh : port.toInt ≤ 65535 := by omega
      refine ⟨port, hport, (hrange port).mpr ⟨hlow, hhigh⟩, UInt16.toNat_inj.mp ?_⟩
      have hsame := hnarrow port hlow hhigh
      omega

theorem parseEntry_ok {obj : Object} {index : ℕ} {sw : SwitchEntry} :
    parseEntry obj index = .ok sw ↔ Says (.object obj) sw := by
  have hparse : parseEntry obj index = .ok sw ↔ ∃ ipv4, textAt (.object obj) "ipv4" = some ipv4 ∧
      ∃ port, ((Json.object obj).member "grpc_port").bind castInt = some port ∧
        ¬(port < 1 ∨ 65535 < port) ∧
        ∃ login, textAt (.object obj) "login" = some login ∧
        ∃ password, textAt (.object obj) "password" = some password ∧
          (⟨getStringOpt obj "name", ipv4, port.toUInt64.toUInt16, login, password⟩ : SwitchEntry) = sw := by
    unfold parseEntry
    simp only [except_bind_ok, getString_ok, getInt_ok]
    refine exists_congr fun ipv4 => and_congr_right fun _ => exists_congr fun port => and_congr_right fun _ => ?_
    split_ifs with hrange
    · simp [hrange]
    · simp only [except_bind_ok, getString_ok, except_pure_ok, hrange, not_false_eq_true, true_and]
  rw [hparse]
  constructor
  · rintro ⟨ipv4, hipv4, port, hport, hrange, login, hlogin, password, hpassword, rfl⟩
    obtain ⟨hwritten, hpos⟩ := port_ok.mp ⟨port, hport, hrange, rfl⟩
    exact ⟨nofun, getStringOpt_eq obj "name", hipv4, hwritten, hpos, hlogin, hpassword⟩
  · rintro ⟨-, hname, hipv4, hwritten, hpos, hlogin, hpassword⟩
    obtain ⟨port, hport, hrange, hsame⟩ := port_ok.mpr ⟨hwritten, hpos⟩
    refine ⟨sw.ipv4, hipv4, port, hport, hrange, sw.login, hlogin, sw.password, hpassword, ?_⟩
    rw [hsame, getStringOpt_eq, ← hname]

theorem parseEntryAt_ok {item : Json × ℕ} {sw : SwitchEntry} :
    parseEntryAt item = .ok sw ↔ Says item.1 sw := by
  unfold parseEntryAt
  rw [except_bind_ok]
  simp only [requireObject_ok, parseEntry_ok]
  constructor
  · rintro ⟨obj, hobj, hsays⟩
    rwa [hobj]
  · intro h
    obtain ⟨obj, hobj⟩ := Option.ne_none_iff_exists'.mp h.object
    have heq := ifObject_eq hobj
    exact ⟨obj, heq, heq ▸ h⟩

theorem parseEntries_ok {arr : List Json} {switches : List SwitchEntry} :
    arr.zipIdx.mapM parseEntryAt = .ok switches ↔ List.Forall₂ Says arr switches := by
  rw [mapM_ok]
  simp only [parseEntryAt_ok]
  rw [← List.forall₂_map_left_iff, List.zipIdx_map_fst]

/-- A document with one switch. -/
def switchDocument (port : Json) : Json :=
  .object [("switches", .array [.object [("ipv4", .string "10.0.0.1"), ("grpc_port", port),
    ("login", .string "admin"), ("password", .string "")]])]

/-- `static_cast` would take 2^32 + 50051 for a port that is in range; the check comes before it. -/
example : (switchConfig "" (switchDocument (.int64 4295017347))).isOk = false := by decide

end Rtsrv.Config.Switches
