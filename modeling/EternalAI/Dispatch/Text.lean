import Mathlib.Data.List.DropRight

/-!
# Texts and the two kinds of trimming

A Python `str` is the list of its code points. Two functions trim the texts of
a task: the command models call `str.strip()`, the dispatch request and the
record validator call `strip(SEARCH_WHITESPACE)` with the thirty characters of
`app/ports/work_object_search.py`. The second set is the first one with U+FEFF
added.

* `Text chars lo hi` — a field of a model that trims by `chars` and bounds the
  length afterwards; its values carry both facts.
* `strip_eq_self` — a text is trimmed when neither end is in the set.
* `searchStripped_iff` — what a text that `str.strip()` leaves alone lacks to
  be normalised for the validator.
-/

namespace EternalAI.Dispatch

open List

/-- A Python `str`. -/
abbrev Str := List Char

/-- Membership in a list of texts is decided with this proof. It is found without a name as
well, but then each module gets a copy of its own. -/
instance Str.lawfulBEq : LawfulBEq Str := inferInstance

/-- What `str.strip()` removes. -/
def pythonWhitespace : List Char :=
  ['\u0009', '\u000a', '\u000b', '\u000c', '\u000d', '\u001c', '\u001d', '\u001e', '\u001f', ' ',
    '\u0085', '\u00a0', '\u1680', '\u2000', '\u2001', '\u2002', '\u2003', '\u2004', '\u2005',
    '\u2006', '\u2007', '\u2008', '\u2009', '\u200a', '\u2028', '\u2029', '\u202f', '\u205f',
    '\u3000']

def searchWhitespace : List Char :=
  ['\u0009', '\u000a', '\u000b', '\u000c', '\u000d', '\u001c', '\u001d', '\u001e', '\u001f', ' ',
    '\u0085', '\u00a0', '\u1680', '\u2000', '\u2001', '\u2002', '\u2003', '\u2004', '\u2005',
    '\u2006', '\u2007', '\u2008', '\u2009', '\u200a', '\u2028', '\u2029', '\u202f', '\u205f',
    '\u3000', '\ufeff']

/-- U+FEFF, the character that only the second set has. -/
def byteOrderMark : Char := '\ufeff'

section

variable (chars : List Char) (value : Str)

/-- `value.strip(chars)`. -/
def strip : Str :=
  (value.dropWhile (· ∈ chars)).rdropWhile (· ∈ chars)

def EndsOutside : Prop :=
  (∀ c ∈ value.head?, c ∉ chars) ∧ ∀ c ∈ value.getLast?, c ∉ chars

instance : Decidable (EndsOutside chars value) :=
  decidable_of_iff ((value.head?.all (· ∉ chars)) = true ∧ (value.getLast?.all (· ∉ chars)) = true)
    (by simp [EndsOutside, Option.all_eq_true])

end

/-! ## Trimming -/

variable {p : Char → Bool} {value : Str}

theorem dropWhile_eq_self : value.dropWhile p = value ↔ ∀ c ∈ value.head?, p c = false := by
  cases value with
  | nil => simp
  | cons c rest =>
    simp

theorem rdropWhile_eq_self : value.rdropWhile p = value ↔ ∀ c ∈ value.getLast?, p c = false := by
  rw [rdropWhile_eq_self_iff]
  constructor
  · intro hLast c hc
    have hne : value ≠ [] := by
      rintro rfl
      cases hc
    rw [getLast?_eq_getLast_of_ne_nil hne] at hc
    rw [← Option.some.inj hc]
    exact Bool.eq_false_iff.mpr (hLast hne)
  · intro hLast hne
    exact Bool.eq_false_iff.mp (hLast _ (getLast?_eq_getLast_of_ne_nil hne))

theorem strip_eq_self {chars : List Char} :
    strip chars value = value ↔ EndsOutside chars value := by
  constructor
  · intro hStrip
    have hLen : ((value.dropWhile (· ∈ chars)).rdropWhile (· ∈ chars)).length = value.length :=
      congrArg List.length hStrip
    have hLeft : value.dropWhile (· ∈ chars) = value := by
      refine (dropWhile_suffix _).eq_of_length ?_
      have hPre := rdropWhile_prefix (· ∈ chars) (value.dropWhile (· ∈ chars))
      have h₁ := hPre.length_le
      have h₂ := (dropWhile_suffix (l := value) (· ∈ chars)).length_le
      omega
    refine ⟨fun c hc => ?_, fun c hc => ?_⟩
    · simpa using dropWhile_eq_self.mp hLeft c hc
    · rw [strip, hLeft] at hStrip
      simpa using rdropWhile_eq_self.mp hStrip c hc
  · rintro ⟨hHead, hLast⟩
    have hLeft : value.dropWhile (· ∈ chars) = value :=
      dropWhile_eq_self.mpr fun c hc => by simpa using hHead c hc
    rw [strip, hLeft]
    exact rdropWhile_eq_self.mpr fun c hc => by simpa using hLast c hc

/-- The first character that is kept stays first when the end is trimmed. -/
theorem head?_rdropWhile (hHead : ∀ c ∈ value.head?, p c = false) :
    ∀ c ∈ (value.rdropWhile p).head?, p c = false := by
  intro c hc
  obtain ⟨rest, hRest⟩ := rdropWhile_prefix p value
  rw [← hRest] at hHead
  refine hHead c ?_
  rw [head?_append, hc]
  rfl

theorem strip_strip (chars : List Char) (value : Str) :
    strip chars (strip chars value) = strip chars value := by
  rw [strip_eq_self]
  refine ⟨fun c hc => ?_, fun c hc => ?_⟩
  · have hHead : ∀ c ∈ (value.dropWhile (· ∈ chars)).head?, decide (c ∈ chars) = false :=
      dropWhile_eq_self.mp (dropWhile_idempotent (p := (· ∈ chars)) value)
    simpa using head?_rdropWhile hHead c hc
  · have hLast := rdropWhile_eq_self.mp
      (rdropWhile_idempotent (· ∈ chars) (value.dropWhile (· ∈ chars)))
    simpa using hLast c hc

theorem mem_searchWhitespace {c : Char} :
    c ∈ searchWhitespace ↔ c ∈ pythonWhitespace ∨ c = byteOrderMark := by
  simp only [searchWhitespace, pythonWhitespace, byteOrderMark, mem_cons, not_mem_nil,
    or_false, or_assoc]

/-- **The gap between the two trimmings.** A text that `str.strip()` leaves
alone is normalised for the validator unless U+FEFF stands at one of its ends. -/
theorem searchStripped_iff (hStripped : strip pythonWhitespace value = value) :
    strip searchWhitespace value = value ↔ EndsOutside [byteOrderMark] value := by
  obtain ⟨hHead, hLast⟩ := strip_eq_self.mp hStripped
  rw [strip_eq_self]
  constructor
  · rintro ⟨hHead', hLast'⟩
    refine ⟨fun c hc hMem => hHead' c hc ?_, fun c hc hMem => hLast' c hc ?_⟩
    · exact mem_searchWhitespace.mpr (.inr (mem_singleton.mp hMem))
    · exact mem_searchWhitespace.mpr (.inr (mem_singleton.mp hMem))
  · rintro ⟨hHead', hLast'⟩
    refine ⟨fun c hc hMem => ?_, fun c hc hMem => ?_⟩
    · rcases mem_searchWhitespace.mp hMem with hMem | rfl
      · exact hHead c hc hMem
      · exact hHead' _ hc (mem_singleton_self _)
    · rcases mem_searchWhitespace.mp hMem with hMem | rfl
      · exact hLast c hc hMem
      · exact hLast' _ hc (mem_singleton_self _)

/-! ## Fields of the models -/

/-- A text field that is trimmed before its length is bounded. -/
structure Text (chars : List Char) (lo hi : Nat) where
  val : Str
  stripped : strip chars val = val
  bounded : lo ≤ val.length ∧ val.length ≤ hi
  deriving DecidableEq

namespace Text

variable {chars : List Char} {lo hi : Nat}

/-- Validation of a text field: trim, then bound. -/
def parse (raw : Str) : Option (Text chars lo hi) :=
  if hLen : lo ≤ (strip chars raw).length ∧ (strip chars raw).length ≤ hi then
    some ⟨strip chars raw, strip_strip chars raw, hLen⟩
  else none

end Text

/-- A text field of a lifecycle command. -/
abbrev CommandText (lo hi : Nat) := Text pythonWhitespace lo hi

/-- A text field of a dispatch request. -/
abbrev RequestText (lo hi : Nat) := Text searchWhitespace lo hi

/-- A bounded identifier, `Field(min_length=1, max_length=128)`. -/
structure Ident where
  val : Str
  bounded : 1 ≤ val.length ∧ val.length ≤ 128
  deriving DecidableEq

end EternalAI.Dispatch
