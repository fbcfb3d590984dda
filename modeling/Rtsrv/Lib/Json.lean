import Mathlib.Data.Int.Notation
import Mathlib.Data.List.Forall2
import Mathlib.Data.List.Nodup
import Rtsrv.Lib.Reader

/-!
# Rtsrv.Lib.Json — JSON documents

A value as a parser hands it over: integers that fit 64 bits, other numbers as doubles, members of an
object in order, and its text.  A `Document` is a value in which no object has a key twice.  Validators of
documents run in `Except`; `mapM_ok` says what a loop over members or items returns.
-/

namespace Rtsrv.Lib

inductive Json where
  | null
  | bool (b : Bool)
  | int64 (i : Int64)
  | uint64 (u : UInt64)
  | double (bits : UInt64)
  | string (s : String)
  | array (items : List Json)
  | object (members : List (String × Json))

namespace Json

abbrev Object := List (String × Json)

def ifObject : Json → Option Object
  | object members => some members
  | _ => none

def ifArray : Json → Option (List Json)
  | array items => some items
  | _ => none

def ifString : Json → Option String
  | string s => some s
  | _ => none

/-- The integer that is written, if one is. -/
def integer : Json → Option ℤ
  | int64 i => some i.toInt
  | uint64 u => some u.toNat
  | _ => none

/-- The value under a key. -/
def ifContains (obj : Object) (key : String) : Option Json :=
  (obj.find? fun m => m.1 = key).map Prod.snd

/-- The value under a key, where the value is an object that has it. -/
def member (v : Json) (key : String) : Option Json := v.ifObject.bind fun obj => ifContains obj key

/-- The items of an array, the values of an object. -/
def children : Json → List Json
  | array items => items
  | object members => members.map Prod.snd
  | _ => []

/-- What stands under a key: the items of the array or the values of the object, if there is one. -/
def childrenAt (v : Json) (key : String) : List Json := ((v.member key).map children).getD []

/-! ### Distinct keys -/

mutual

def distinctKeys : Json → Bool
  | array items => distinctItems items
  | object members => decide (members.map Prod.fst).Nodup && distinctMembers members
  | _ => true

def distinctItems : List Json → Bool
  | [] => true
  | v :: items => v.distinctKeys && distinctItems items

def distinctMembers : List (String × Json) → Bool
  | [] => true
  | (_, v) :: members => v.distinctKeys && distinctMembers members

end

theorem distinctMembers_mem {members : Object} (h : distinctMembers members = true) :
    ∀ m ∈ members, m.2.distinctKeys = true := by
  induction members with
  | nil => exact fun m hm => absurd hm List.not_mem_nil
  | cons m members ih =>
    rw [distinctMembers, Bool.and_eq_true] at h
    exact List.forall_mem_cons.mpr ⟨h.1, ih h.2⟩

theorem distinct_object {members : Object} (h : (object members).distinctKeys = true) :
    (members.map Prod.fst).Nodup ∧ ∀ m ∈ members, m.2.distinctKeys = true := by
  rw [distinctKeys, Bool.and_eq_true] at h
  exact ⟨of_decide_eq_true h.1, distinctMembers_mem h.2⟩

theorem ifObject_eq {v : Json} {obj : Object} (h : v.ifObject = some obj) : v = object obj := by
  unfold ifObject at h
  split at h
  · rw [Option.some.inj h]
  · cases h

theorem ifContains_mem {obj : Object} {key : String} {v : Json} (h : ifContains obj key = some v) :
    (key, v) ∈ obj := by
  obtain ⟨⟨k, w⟩, hfind, rfl⟩ := Option.map_eq_some_iff.mp h
  have hkey : k = key := by simpa using List.find?_some hfind
  rw [← hkey]
  exact List.mem_of_find?_eq_some hfind

/-- What stands under a key of a document with distinct keys has distinct keys. -/
theorem distinct_ifContains {obj : Object} {key : String} {v : Json}
    (h : (object obj).distinctKeys = true) (hv : ifContains obj key = some v) :
    v.distinctKeys = true := (distinct_object h).2 _ (ifContains_mem hv)

theorem member_object (obj : Object) (key : String) : (object obj).member key = ifContains obj key := rfl

/-! ### Texts -/

/-- A finite double as a decimal: `m · 2⁻ⁿ` is `m · 5ⁿ · 10⁻ⁿ`. -/
def doubleText (bits : UInt64) : String :=
  let exponent := bits.toNat / 0x10000000000000 % 0x800
  let fraction := bits.toNat % 0x10000000000000
  -- A subnormal number has the exponent of the least normal one.
  let scale := if exponent = 0 then 1 else exponent
  let mantissa := if exponent = 0 then fraction else fraction + 0x10000000000000
  let sign := if bits.toNat < 0x8000000000000000 then "" else "-"
  if scale < 1075 then
    sign ++ toString (mantissa * Nat.pow 5 (1075 - scale)) ++ "e-" ++ toString (1075 - scale)
  else sign ++ toString (mantissa * Nat.pow 2 (scale - 1075)) ++ "e0"

def charText (c : Char) : List Char :=
  if c.toNat < 32 then "\\u00".toList ++ [Nat.digitChar (c.toNat / 16), Nat.digitChar (c.toNat % 16)]
  else if c.toNat = 34 ∨ c.toNat = 92 then [Char.ofNat 92, c]
  else [c]

def stringText (s : String) : String := "\"" ++ String.ofList (s.toList.flatMap charText) ++ "\""

mutual

def text : Json → String
  | null => "null"
  | bool b => if b then "true" else "false"
  | int64 i => toString i.toInt
  | uint64 u => toString u.toNat
  | double bits => doubleText bits
  | string s => stringText s
  | array items => "[" ++ String.intercalate ", " (itemTexts items) ++ "]"
  | object members => "\x7b" ++ String.intercalate ", " (memberTexts members) ++ "\x7d"

def itemTexts : List Json → List String
  | [] => []
  | v :: items => v.text :: itemTexts items

def memberTexts : List (String × Json) → List String
  | [] => []
  | (key, v) :: members => (stringText key ++ ": " ++ v.text) :: memberTexts members

end

end Json

/-- A document as a parser accepts it. -/
structure Document where
  root : Json
  distinct : root.distinctKeys = true

/-- What is read of a file, and whether reading broke off. -/
structure FileContent where
  content : String
  bad : Bool
  deriving DecidableEq, Repr

/-- Why a parser refuses a text, as an exception and as an error code say it. -/
structure ParseError where
  what : String
  message : String
  deriving DecidableEq, Repr

/-- The files that can be opened, and a parser. -/
structure Files where
  read : String → Option FileContent
  parse : String → Except ParseError Document

/-! ### Validators -/

section Checks

variable {ε α β γ : Type}

/-- A loop that may fail returns what each round returns. -/
theorem mapM_ok {f : α → Except ε β} :
    ∀ {as : List α} {bs : List β}, as.mapM f = .ok bs ↔ List.Forall₂ (fun a b => f a = .ok b) as bs
  | [], bs => by
    rw [List.mapM_nil, except_pure_ok, List.forall₂_nil_left_iff, eq_comm]
  | a :: as, bs => by
    rw [List.mapM_cons, except_bind_ok, List.forall₂_cons_left_iff]
    simp only [except_bind_ok, mapM_ok, except_pure_ok]
    constructor
    · rintro ⟨b, hb, bs', hbs, rfl⟩
      exact ⟨b, bs', hb, hbs, rfl⟩
    · rintro ⟨b, bs', hb, hbs, rfl⟩
      exact ⟨b, hb, bs', hbs, rfl⟩

/-- What holds of each pair is taken over by the list. -/
theorem map_eq_of_forall₂ {p : α → γ} {q : β → γ} {as : List α} {bs : List β}
    (h : List.Forall₂ (fun a b => p a = q b) as bs) : as.map p = bs.map q := by
  rw [← List.forall₂_eq_eq_eq, List.forall₂_map_left_iff, List.forall₂_map_right_iff]
  exact h

theorem forall₂_mem_right {R : α → β → Prop} {as : List α} {bs : List β} (h : List.Forall₂ R as bs)
    {b : β} (hb : b ∈ bs) : ∃ a ∈ as, R a b := by
  induction h with
  | nil => exact absurd hb List.not_mem_nil
  | @cons a b' as bs hab _ ih =>
    rcases List.mem_cons.mp hb with rfl | hb
    · exact ⟨a, List.mem_cons_self, hab⟩
    · obtain ⟨a', ha', hR⟩ := ih hb
      exact ⟨a', List.mem_cons_of_mem a ha', hR⟩

/-- The first match among the results comes from the first match among the items. -/
theorem find?_of_forall₂ {f : α → Option β} {p : α → Bool} {q : β → Bool} {as : List α} {bs : List β}
    (h : List.Forall₂ (fun a b => f a = some b ∧ p a = q b) as bs) :
    bs.find? q = (as.find? p).bind f := by
  induction h with
  | nil => rfl
  | @cons a b as bs hab _ ih =>
    rw [List.find?_cons, List.find?_cons, hab.2]
    cases q b with
    | true => exact hab.1.symm
    | false => exact ih

end Checks

end Rtsrv.Lib
