import Mathlib.Algebra.Order.Ring.Nat
import Mathlib.Data.List.Infix
import MysqlConnection.Core.TSqlSelect

/-!
# LIKE patterns of T-SQL

`%` stands for any text, `_` for any character, `[…]` for one character of a
set (`^` for one that is not in it, `a-z` for a range); all others stand for
themselves, also a `]` on its own. Nothing matches a pattern with a `[` that is
not closed. Characters are compared as they are, as in a binary collation.

* `like_of_verbatim`: a text without wildcards between percent signs matches
  the values that contain it.
* `instance_or_none`: the rest of a pattern has a match that is no longer than
  its text, or no match at all. So the text must be its only short match
  (`verbatim_of_like`).
* `Select.result`: the rows that a statement returns.
-/
namespace MysqlConnection.TSql

/-! ## Patterns -/

inductive Wild where
  | percent
  | any
  | set (content : Text)
  | char (c : Char)
  | unclosed
  deriving DecidableEq, Repr

/-- `scan (some content)` is inside a set; a `[` opens one only if it is closed. -/
def scan : Option Text → Text → List Wild
  | _, [] => []
  | none, c :: s =>
    if c = '%' then .percent :: scan none s
    else if c = '_' then .any :: scan none s
    else if c = '[' then if ']' ∈ s then scan (some []) s else .unclosed :: scan none s
    else .char c :: scan none s
  | some content, c :: s =>
    if c = ']' then .set content :: scan none s else scan (some (content ++ [c])) s

def inRanges : Text → Char → Bool
  | [], _ => false
  | a :: '-' :: b :: s, c => (a ≤ c && c ≤ b) || inRanges s c
  | a :: s, c => a == c || inRanges s c

def inSet (content : Text) (c : Char) : Bool :=
  match content with
  | '^' :: s => !inRanges s c
  | s => inRanges s c

def matchWilds : List Wild → Text → Bool
  | [], v => v.isEmpty
  | .percent :: ws, v => v.tails.any fun w => matchWilds ws w
  | .any :: ws, v =>
    match v with
    | [] => false
    | _ :: v => matchWilds ws v
  | .set content :: ws, v =>
    match v with
    | [] => false
    | c :: v => inSet content c && matchWilds ws v
  | .char a :: ws, v =>
    match v with
    | [] => false
    | c :: v => a == c && matchWilds ws v
  | .unclosed :: _, _ => false

/-- `v LIKE 'pattern'` -/
def like (pattern v : Text) : Bool := matchWilds (scan none pattern) v

/-! ## Matches -/

theorem matchWilds_percent {ws : List Wild} {v : Text} :
    matchWilds (.percent :: ws) v ↔ ∃ w, w <:+ v ∧ matchWilds ws w := by
  simp [matchWilds, List.any_eq_true, List.mem_tails]

theorem matchWilds_cons_char {c : Char} {ws : List Wild} {v : Text} :
    matchWilds (.char c :: ws) v ↔ ∃ w, v = c :: w ∧ matchWilds ws w := by
  cases v with
  | nil => simp [matchWilds]
  | cons d v =>
    simp only [matchWilds, Bool.and_eq_true, beq_iff_eq, List.cons.injEq]
    constructor
    · rintro ⟨rfl, h⟩
      exact ⟨v, ⟨rfl, rfl⟩, h⟩
    · rintro ⟨w, ⟨rfl, rfl⟩, h⟩
      exact ⟨rfl, h⟩

theorem matchWilds_chars {t : Text} {ws : List Wild} {v : Text} :
    matchWilds (t.map Wild.char ++ ws) v ↔ ∃ w, v = t ++ w ∧ matchWilds ws w := by
  induction t generalizing v with
  | nil => simp
  | cons c t ih =>
    rw [List.map_cons, List.cons_append, matchWilds_cons_char]
    constructor
    · rintro ⟨w, rfl, h⟩
      obtain ⟨u, rfl, hu⟩ := ih.mp h
      exact ⟨u, rfl, hu⟩
    · rintro ⟨u, rfl, hu⟩
      exact ⟨t ++ u, rfl, ih.mpr ⟨u, rfl, hu⟩⟩

/-- A percent sign at the end matches the rest. -/
theorem matchWilds_last (v : Text) : matchWilds [.percent] v :=
  matchWilds_percent.mpr ⟨[], List.nil_suffix, rfl⟩

/-! ## Texts without wildcards -/

/-- Each character stands for itself. -/
def Verbatim (text : Text) : Prop := '%' ∉ text ∧ '_' ∉ text ∧ '[' ∉ text

theorem verbatim_cons {c : Char} {text : Text} :
    Verbatim (c :: text) ↔ (c ≠ '%' ∧ c ≠ '_' ∧ c ≠ '[') ∧ Verbatim text := by
  simp only [Verbatim, List.mem_cons, not_or, ne_eq, eq_comm (b := c)]
  tauto

theorem scan_verbatim {text : Text} (h : Verbatim text) (s : Text) :
    scan none (text ++ s) = text.map Wild.char ++ scan none s := by
  induction text with
  | nil => rfl
  | cons c text ih =>
    obtain ⟨⟨h1, h2, h3⟩, ht⟩ := verbatim_cons.mp h
    rw [List.cons_append, scan, if_neg h1, if_neg h2, if_neg h3, ih ht, List.map_cons, List.cons_append]

/-- The pattern for a text between percent signs. -/
def containsPattern (text : Text) : Text := '%' :: (text ++ ['%'])

theorem like_containsPattern {text v : Text} :
    like (containsPattern text) v ↔ ∃ w, w <:+ v ∧ matchWilds (scan none (text ++ ['%'])) w := by
  rw [like, containsPattern, scan, if_pos rfl, matchWilds_percent]

theorem like_of_verbatim {text : Text} (h : Verbatim text) (v : Text) :
    like (containsPattern text) v ↔ text <:+: v := by
  rw [like_containsPattern, scan_verbatim h, List.infix_iff_prefix_suffix]
  constructor
  · rintro ⟨w, hw, hm⟩
    obtain ⟨u, rfl, -⟩ := matchWilds_chars.mp hm
    exact ⟨_, List.prefix_append text u, hw⟩
  · rintro ⟨w, ⟨u, rfl⟩, hw⟩
    exact ⟨_, hw, matchWilds_chars.mpr ⟨u, rfl, matchWilds_last u⟩⟩

/-! ## Other texts -/

/-- The set is read up to its bracket. -/
theorem scan_set {content : Text} (h : ']' ∉ content) (acc s : Text) :
    scan (some acc) (content ++ ']' :: s) = .set (acc ++ content) :: scan none s := by
  induction content generalizing acc with
  | nil => rw [List.nil_append, scan, if_pos rfl, List.append_nil]
  | cons c content ih =>
    rw [List.mem_cons, not_or] at h
    rw [List.cons_append, scan, if_neg (Ne.symm h.1), ih h.2, List.append_assoc]
    rfl

/-- A match of the pattern that is no longer than the text, and the text itself
only if it has no wildcards. -/
def ShortMatch (text v : Text) : Prop :=
  matchWilds (scan none (text ++ ['%'])) v ∧ v.length ≤ text.length ∧ (v = text → Verbatim text)

/-- No value matches the text and what follows it. -/
def Unmatched (text : Text) : Prop := ∀ v, ¬ matchWilds (scan none (text ++ ['%'])) v

theorem matchWilds_rest {w : Wild} {ws : List Wild} {v : Text} (h : matchWilds (w :: ws) v) :
    ∃ v', matchWilds ws v' := by
  cases w with
  | percent =>
    obtain ⟨v', -, hv⟩ := matchWilds_percent.mp h
    exact ⟨v', hv⟩
  | any =>
    cases v with
    | nil => simp [matchWilds] at h
    | cons c v => exact ⟨v, h⟩
  | set content =>
    cases v with
    | nil => simp [matchWilds] at h
    | cons c v =>
      simp only [matchWilds, Bool.and_eq_true] at h
      exact ⟨v, h.2⟩
  | char c =>
    obtain ⟨v', -, hv⟩ := matchWilds_cons_char.mp h
    exact ⟨v', hv⟩
  | unclosed => simp [matchWilds] at h

/-- One wildcard in front: `src` is its text and `u` what it matches here. -/
theorem instance_step (src u : Text) (w : Wild) {text : Text}
    (hs : scan none (src ++ text ++ ['%']) = w :: scan none (text ++ ['%']))
    (hu : ∀ ws v, matchWilds ws v → matchWilds (w :: ws) (u ++ v)) (hl : u.length ≤ src.length)
    (he : u = src → Verbatim text → Verbatim (src ++ text))
    (h : (∃ v, ShortMatch text v) ∨ Unmatched text) :
    (∃ v, ShortMatch (src ++ text) v) ∨ Unmatched (src ++ text) := by
  rcases h with ⟨v, hm, hlen, hv⟩ | h
  · refine Or.inl ⟨u ++ v, ?_, ?_, fun heq => ?_⟩
    · rw [hs]
      exact hu _ v hm
    · rw [List.length_append, List.length_append]
      omega
    · -- equal texts have equal lengths, so both parts are as long as they may be
      have hle := congrArg List.length heq
      rw [List.length_append, List.length_append] at hle
      obtain ⟨rfl, rfl⟩ := List.append_inj heq (by omega)
      exact he rfl (hv rfl)
  · refine Or.inr fun v hm => ?_
    rw [hs] at hm
    obtain ⟨v', hv'⟩ := matchWilds_rest hm
    exact h v' hv'

/-- Induction on the text, one wildcard or character at a time. -/
theorem instance_or_none (text : Text) : (∃ v, ShortMatch text v) ∨ Unmatched text := by
  match text with
  | [] => exact Or.inl ⟨[], matchWilds_last [], Nat.le_refl _, fun _ => by simp [Verbatim]⟩
  | c :: text =>
    by_cases h1 : c = '%'
    · refine instance_step [c] [] .percent ?_ ?_ (Nat.zero_le _) ?_
        (instance_or_none text)
      · rw [List.singleton_append, List.cons_append, scan, if_pos h1]
      · exact fun ws v h => matchWilds_percent.mpr ⟨v, List.suffix_refl v, h⟩
      · intro h
        cases h
    by_cases h2 : c = '_'
    · refine instance_step [c] ['a'] .any ?_ ?_ (Nat.le_refl _) ?_
        (instance_or_none text)
      · rw [List.singleton_append, List.cons_append, scan, if_neg h1, if_pos h2]
      · exact fun ws v h => h
      · intro h
        rw [h2] at h
        cases h
    by_cases h3 : c = '['
    · by_cases hclosed : ']' ∈ text
      · obtain ⟨content, rest, rfl, hc⟩ := List.eq_append_cons_of_mem hclosed
        have hs : scan none (c :: (content ++ ']' :: rest) ++ ['%']) =
            .set content :: scan none (rest ++ ['%']) := by
          rw [List.cons_append, scan, if_neg h1, if_neg h2, if_pos h3, if_pos (by simp),
            List.append_assoc, List.cons_append, scan_set hc, List.nil_append]
        by_cases hmem : ∃ d, inSet content d = true
        · obtain ⟨d, hd⟩ := hmem
          have hsrc : c :: (content ++ ']' :: rest) = (c :: (content ++ [']'])) ++ rest := by simp
          rw [hsrc]
          refine instance_step (c :: (content ++ [']'])) [d] (.set content) (by rw [← hsrc, hs]) ?_ (by simp) ?_
            (instance_or_none rest)
          · intro ws v h
            simp [matchWilds, hd, h]
          · intro h
            have hlen := congrArg List.length h
            simp at hlen
        · -- the set has no character, so nothing matches
          refine Or.inr fun v hm => hmem ?_
          rw [hs] at hm
          cases v with
          | nil => simp [matchWilds] at hm
          | cons d v =>
            simp only [matchWilds, Bool.and_eq_true] at hm
            exact ⟨d, hm.1⟩
      · refine Or.inr fun v hm => ?_
        rw [List.cons_append, scan, if_neg h1, if_neg h2, if_pos h3, if_neg (by simpa using hclosed)] at hm
        simp [matchWilds] at hm
    refine instance_step [c] [c] (.char c) ?_ ?_ (Nat.le_refl _) ?_
      (instance_or_none text)
    · rw [List.singleton_append, List.cons_append, scan, if_neg h1, if_neg h2, if_neg h3]
    · exact fun ws v h => matchWilds_cons_char.mpr ⟨v, rfl, h⟩
    · exact fun _ ht => verbatim_cons.mpr ⟨⟨h1, h2, h3⟩, ht⟩
  termination_by text.length

theorem verbatim_of_like {text : Text} (h : ∀ v, like (containsPattern text) v ↔ text <:+: v) :
    Verbatim text := by
  rcases instance_or_none text with ⟨v, hm, hlen, hv⟩ | hnone
  · have hin := (h v).mp (like_containsPattern.mpr ⟨v, List.suffix_refl v, hm⟩)
    exact hv (hin.eq_of_length_le hlen).symm
  · obtain ⟨w, -, hw⟩ := like_containsPattern.mp ((h text).mpr List.infix_rfl)
    exact absurd hw (hnone w)

/-- **Containment by LIKE.** A text between percent signs is a pattern for the
values that contain it exactly if it has no wildcard. -/
theorem like_containsPattern_iff (text : Text) :
    (∀ v, like (containsPattern text) v ↔ text <:+: v) ↔ Verbatim text :=
  ⟨verbatim_of_like, like_of_verbatim⟩

example : like "%50[%] [^a-f]_%".toList "only 50% off".toList = true := by decide

/-! ## Rows -/

/-- A row by its columns; a NULL matches no pattern. -/
abbrev DataRow := Text → Option Text

/-- The rows of the table for which all conditions hold. -/
def Select.result (q : Select) (data : List DataRow) : List DataRow :=
  data.filter fun row => q.conditions.all fun x => (row x.1).any (like x.2)

end MysqlConnection.TSql
