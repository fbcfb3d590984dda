import Mathlib.Data.String.Basic
import Rtsrv.Lib.Keyed
import Rtsrv.Lib.OrderFree

/-!
# Rtsrv.Lib.TextRecord — tables written as text

One line for each row, and on it the fields as `name=value` with blanks between them.  Where no value has a
blank or a line break, the text determines the fields.  The rows of a keyed map are written in the order of
their keys.
-/

namespace Rtsrv.Lib

/-- Neither a blank nor a line break occurs in the text. -/
def Plain (s : String) : Prop := ' ' ∉ s.toList ∧ '\n' ∉ s.toList

instance (s : String) : Decidable (Plain s) := inferInstanceAs (Decidable (_ ∧ _))

/-- The fields of a row. -/
def record (fields : List (String × String)) : String :=
  " ".intercalate (fields.map fun field => field.1 ++ "=" ++ field.2)

/-- Lines, each with its line break. -/
def unlines : List String → String
  | [] => ""
  | line :: lines => line ++ "\n" ++ unlines lines

/-- The fields of a row can be read back. -/
def PlainFields (fields : List (String × String)) : Prop := ∀ field ∈ fields, Plain field.1 ∧ Plain field.2

theorem plainFields_of {fields : List (String × String)} (hnames : ∀ name ∈ fields.map Prod.fst, Plain name)
    (hvalues : ∀ value ∈ fields.map Prod.snd, Plain value) : PlainFields fields := fun field hfield =>
  ⟨hnames field.1 (List.mem_map_of_mem hfield), hvalues field.2 (List.mem_map_of_mem hfield)⟩

theorem Plain.append {s t : String} (hs : Plain s) (ht : Plain t) : Plain (s ++ t) := by
  rw [Plain, String.toList_append, List.mem_append, List.mem_append, not_or, not_or]
  exact ⟨⟨hs.1, ht.1⟩, hs.2, ht.2⟩

theorem plain_nat (n : ℕ) : Plain (toString n) := by
  have hdigit : ∀ c ∈ (toString n).toList, c.isDigit = true := fun c hc =>
    Nat.isDigit_of_mem_toDigits (b := 10) (by decide) (by decide) (by simpa using hc)
  exact ⟨fun h => absurd (hdigit _ h) (by decide), fun h => absurd (hdigit _ h) (by decide)⟩

theorem plain_int (i : ℤ) : Plain (toString i) := by
  rcases i with n | n
  · exact plain_nat n
  · exact Plain.append (s := "-") (by decide) (plain_nat (n + 1))

theorem PlainFields.texts {fields : List (String × String)} (h : PlainFields fields) :
    ∀ text ∈ fields.map (fun field => field.1 ++ "=" ++ field.2), Plain text := by
  intro text htext
  obtain ⟨field, hfield, rfl⟩ := List.mem_map.mp htext
  obtain ⟨hname, hvalue⟩ := h field hfield
  exact (hname.append (by decide)).append hvalue

theorem toList_record (fields : List (String × String)) : (record fields).toList =
    [' '].intercalate ((fields.map fun field => field.1 ++ "=" ++ field.2).map String.toList) := by
  rw [record, String.toList_intercalate]
  rfl

theorem splitOn_record {fields : List (String × String)} (h : PlainFields fields) (hne : fields ≠ []) :
    (record fields).toList.splitOn ' ' =
      (fields.map fun field => field.1 ++ "=" ++ field.2).map String.toList := by
  rw [toList_record]
  refine List.splitOn_intercalate ' ' (fun text htext => ?_) fun hnil => ?_
  · obtain ⟨s, hs, rfl⟩ := List.mem_map.mp htext
    exact (h.texts s hs).1
  · exact hne (List.map_eq_nil_iff.mp (List.map_eq_nil_iff.mp hnil))

/-- Fields with the same names that are written alike have the same values. -/
theorem fields_inj {fields fields' : List (String × String)}
    (hnames : fields.map Prod.fst = fields'.map Prod.fst)
    (htexts : fields.map (fun field => field.1 ++ "=" ++ field.2) =
      fields'.map fun field => field.1 ++ "=" ++ field.2) : fields = fields' := by
  induction fields generalizing fields' with
  | nil => exact (List.map_eq_nil_iff.mp hnames.symm).symm
  | cons field fields ih =>
    cases fields' with
    | nil => cases hnames
    | cons field' fields' =>
      obtain ⟨hname, hnames⟩ := List.cons.inj hnames
      obtain ⟨htext, htexts⟩ := List.cons.inj htexts
      have hname : field.1 = field'.1 := hname
      have htext : field.1 ++ "=" ++ field.2 = field'.1 ++ "=" ++ field'.2 := htext
      rw [hname] at htext
      rw [ih hnames htexts, Prod.ext hname ((String.append_right_inj _).mp htext)]

/-- **A line determines its fields**, given their names. -/
theorem record_inj {fields fields' : List (String × String)} (h : PlainFields fields)
    (h' : PlainFields fields') (hnames : fields.map Prod.fst = fields'.map Prod.fst)
    (heq : record fields = record fields') : fields = fields' := by
  by_cases hne : fields = []
  · rw [hne] at hnames ⊢
    exact (List.map_eq_nil_iff.mp hnames.symm).symm
  have hne' : fields' ≠ [] := by
    rintro rfl
    exact hne (List.map_eq_nil_iff.mp hnames)
  have htexts := splitOn_record h hne
  rw [heq, splitOn_record h' hne'] at htexts
  exact fields_inj hnames (List.map_injective_iff.mpr (fun _ _ hst => String.toList_inj.mp hst) htexts).symm

theorem mem_intercalate {α : Type} {sep : List α} {c : α} :
    ∀ {parts : List (List α)}, c ∈ sep.intercalate parts → c ∈ sep ∨ ∃ part ∈ parts, c ∈ part
  | [], h => absurd h List.not_mem_nil
  | [part], h => by
    rw [List.intercalate_singleton] at h
    exact .inr ⟨part, List.mem_singleton_self part, h⟩
  | part :: next :: parts, h => by
    rw [List.intercalate_cons_cons, List.mem_append, List.mem_append] at h
    rcases h with (h | h) | h
    · exact .inr ⟨part, List.mem_cons_self, h⟩
    · exact .inl h
    · exact (mem_intercalate h).imp_right fun ⟨p, hp, hc⟩ => ⟨p, List.mem_cons_of_mem part hp, hc⟩

/-- No line break occurs in a line. -/
theorem record_unbroken {fields : List (String × String)} (h : PlainFields fields) :
    '\n' ∉ (record fields).toList := by
  rw [toList_record]
  intro hmem
  rcases mem_intercalate hmem with hmem | ⟨part, hpart, hmem⟩
  · exact absurd hmem (by decide)
  · obtain ⟨text, htext, rfl⟩ := List.mem_map.mp hpart
    exact (h.texts text htext).2 hmem

theorem toList_unlines_cons (line : String) (lines : List String) :
    (unlines (line :: lines)).toList = line.toList ++ '\n' :: (unlines lines).toList := by
  simp [unlines]

/-- **A text determines its lines.** -/
theorem unlines_inj {lines lines' : List String} (h : ∀ line ∈ lines, '\n' ∉ line.toList)
    (h' : ∀ line ∈ lines', '\n' ∉ line.toList) (heq : unlines lines = unlines lines') : lines = lines' := by
  have hfront : ∀ {line : String} {rest : List Char}, '\n' ∉ line.toList →
      (line.toList ++ '\n' :: rest).takeWhile (· ≠ '\n') = line.toList := by
    intro line rest hline
    have hpos : ∀ c ∈ line.toList, decide (c ≠ '\n') = true := fun c hc =>
      decide_eq_true fun hbreak => hline (hbreak ▸ hc)
    rw [List.takeWhile_append_of_pos hpos, List.takeWhile_cons_of_neg (by decide), List.append_nil]
  induction lines generalizing lines' with
  | nil =>
    cases lines' with
    | nil => rfl
    | cons line' lines' =>
      have hlist := congrArg String.toList heq
      rw [toList_unlines_cons] at hlist
      exact absurd hlist.symm (by simp [unlines])
  | cons line lines ih =>
    cases lines' with
    | nil =>
      have hlist := congrArg String.toList heq
      rw [toList_unlines_cons] at hlist
      exact absurd hlist (by simp [unlines])
    | cons line' lines' =>
      obtain ⟨hline, hlines⟩ := List.forall_mem_cons.mp h
      obtain ⟨hline', hlines'⟩ := List.forall_mem_cons.mp h'
      have hlist := congrArg String.toList heq
      rw [toList_unlines_cons, toList_unlines_cons] at hlist
      have hfirst : line.toList = line'.toList := by rw [← hfront hline, hlist, hfront hline']
      rw [hfirst] at hlist
      have hrest := (List.cons.inj (List.append_cancel_left hlist)).2
      rw [String.toList_inj.mp hfirst, ih hlines hlines' (String.toList_inj.mp hrest)]

/-! ### Names for some values -/

section Label

variable {α : Type} [DecidableEq α] (names : List (α × String)) (other : α → String)

/-- A value by its name, or another text for it. -/
def labelOr (v : α) : String :=
  match names.find? fun name => name.1 = v with
  | some name => name.2
  | none => other v

theorem labelOr_cases (v : α) :
    (∃ name ∈ names, name.1 = v ∧ labelOr names other v = name.2) ∨ labelOr names other v = other v := by
  unfold labelOr
  cases hfind : names.find? fun name => name.1 = v with
  | none => exact .inr rfl
  | some name =>
    exact .inl ⟨name, List.mem_of_find?_eq_some hfind, by simpa using List.find?_some hfind, rfl⟩

variable {names other}

theorem plain_labelOr (h : ∀ name ∈ names, Plain name.2) (hother : ∀ v, Plain (other v)) (v : α) :
    Plain (labelOr names other v) := by
  obtain ⟨name, hmem, -, hlabel⟩ | hlabel := labelOr_cases names other v
  · rw [hlabel]
    exact h name hmem
  · rw [hlabel]
    exact hother v

/-- **Values can be told apart by their labels**, where the names differ and none is the text of a value. -/
theorem labelOr_injective (hnames : (names.map Prod.snd).Nodup)
    (hother : ∀ name ∈ names, ∀ v, other v ≠ name.2) (hinj : Function.Injective other) :
    Function.Injective (labelOr names other) := by
  intro v w h
  obtain ⟨a, ha, rfl, hv⟩ | hv := labelOr_cases names other v
  · obtain ⟨b, hb, rfl, hw⟩ | hw := labelOr_cases names other w
    · rw [List.inj_on_of_nodup_map hnames ha hb (hv.symm.trans (h.trans hw))]
    · exact absurd (hw.symm.trans (h.symm.trans hv)) (hother a ha w)
  · obtain ⟨b, hb, rfl, hw⟩ | hw := labelOr_cases names other w
    · exact absurd (hv.symm.trans (h.trans hw)) (hother b hb v)
    · exact hinj (hv.symm.trans (h.trans hw))

end Label

/-! ### Rows in the order of their keys -/

namespace Keyed

variable {κ ν ι : Type} [LinearOrder ι] {key : ν → κ} (rank : κ → ι)

/-- The rows in the order of their keys. -/
def inOrder (m : Keyed key) : List ν := m.rows.mergeSort fun a b => decide (rank (key a) ≤ rank (key b))

theorem inOrder_perm (m : Keyed key) : (m.inOrder rank).Perm m.rows := List.mergeSort_perm _ _

theorem inOrder_sorting (m : Keyed key) : Sorting (fun v => rank (key v)) m.rows (m.inOrder rank) where
  perm := m.inOrder_perm rank
  sorted := by
    refine (List.pairwise_mergeSort (fun a b c hab hbc => ?_) (fun a b => ?_) m.rows).imp of_decide_eq_true
    · exact decide_eq_true ((of_decide_eq_true hab).trans (of_decide_eq_true hbc))
    · simpa using le_total (rank (key a)) (rank (key b))

variable {rank}

/-- Maps with the same rows are gone through alike. -/
theorem inOrder_eq_iff (hrank : Function.Injective rank) {m m' : Keyed key} :
    m.inOrder rank = m'.inOrder rank ↔ m.rows.Perm m'.rows := by
  refine ⟨fun h => (m.inOrder_perm rank).symm.trans (h ▸ m'.inOrder_perm rank), fun h => ?_⟩
  refine (m.inOrder_sorting rank).unique (m'.inOrder_sorting rank) h fun a ha b hb hab => ?_
  exact List.inj_on_of_nodup_map m.distinct ha hb (hrank hab)

end Keyed

/-- A map that is injective on the items of two lists. -/
theorem map_inj_of_mem {α β : Type} {f : α → β} :
    ∀ {l l' : List α}, (∀ a ∈ l, ∀ b ∈ l', f a = f b → a = b) → l.map f = l'.map f → l = l'
  | [], [], _, _ => rfl
  | [], _ :: _, _, h => nomatch h
  | _ :: _, [], _, h => nomatch h
  | a :: l, b :: l', hinj, h => by
    obtain ⟨hab, h⟩ := List.cons.inj h
    rw [hinj a List.mem_cons_self b List.mem_cons_self hab, map_inj_of_mem (fun a ha b hb =>
      hinj a (List.mem_cons_of_mem _ ha) b (List.mem_cons_of_mem _ hb)) h]

/-- **A table determines its rows**: texts of a heading and a line for each row agree only for maps with the
same rows, where the fields of a row determine it. -/
theorem table_text_inj {κ ν ι : Type} [LinearOrder ι] {key : ν → κ} {rank : κ → ι}
    (hrank : Function.Injective rank) {heading : ℕ → String} {fields : ν → List (String × String)}
    {names : List String} (Clean : ν → Prop) (hheading : ∀ n, '\n' ∉ (heading n).toList)
    (hplain : ∀ v, Clean v → PlainFields (fields v)) (hnames : ∀ v, (fields v).map Prod.fst = names)
    (hinj : ∀ v w, Clean v → Clean w → fields v = fields w → v = w) {m m' : Keyed key}
    (h : ∀ v ∈ m.rows, Clean v) (h' : ∀ v ∈ m'.rows, Clean v) :
    unlines (heading m.rows.length :: (m.inOrder rank).map fun v => record (fields v)) =
        unlines (heading m'.rows.length :: (m'.inOrder rank).map fun v => record (fields v)) ↔
      m.rows.Perm m'.rows := by
  have hclean : ∀ {m : Keyed key}, (∀ v ∈ m.rows, Clean v) → ∀ v ∈ m.inOrder rank, Clean v :=
    fun h v hv => h v ((Keyed.inOrder_perm rank _).mem_iff.mp hv)
  have hunbroken : ∀ {m : Keyed key}, (∀ v ∈ m.rows, Clean v) →
      ∀ line ∈ heading m.rows.length :: (m.inOrder rank).map (fun v => record (fields v)),
        '\n' ∉ line.toList := by
    intro m h
    refine List.forall_mem_cons.mpr ⟨hheading _, fun line hline => ?_⟩
    obtain ⟨v, hv, rfl⟩ := List.mem_map.mp hline
    exact record_unbroken (hplain v (hclean h v hv))
  rw [← Keyed.inOrder_eq_iff hrank]
  constructor
  · intro heq
    have hrows := (List.cons.inj (unlines_inj (hunbroken h) (hunbroken h') heq)).2
    refine map_inj_of_mem (fun v hv w hw hvw => ?_) hrows
    have hv := hclean h v hv
    have hw := hclean h' w hw
    exact hinj v w hv hw (record_inj (hplain v hv) (hplain w hw) ((hnames v).trans (hnames w).symm) hvw)
  · intro heq
    have hlen : m.rows.length = m'.rows.length := by
      rw [← (m.inOrder_perm rank).length_eq, heq, (m'.inOrder_perm rank).length_eq]
    rw [heq, hlen]

end Rtsrv.Lib
