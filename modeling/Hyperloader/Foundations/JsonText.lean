/-
Module: Hyperloader.Foundations.JsonText
Purpose: JSON texts as bytes: their grammar, a scanner that follows quotes and brackets, and
  the fact that no JSON text starts with an opened object and ends with a whole one.
Trusted boundary: none
Main exports:
  Characters, Derives, Text, scan, text_scans, opened_append_not_text
-/
import Mathlib.Data.List.Basic

namespace Hyperloader.Foundations.JsonText

def quote : UInt8 := 0x22
def backslash : UInt8 := 0x5C
def comma : UInt8 := 0x2C
def colon : UInt8 := 0x3A
def openBrace : UInt8 := 0x7B
def closeBrace : UInt8 := 0x7D
def openBracket : UInt8 := 0x5B
def closeBracket : UInt8 := 0x5D

def blank (byte : UInt8) : Bool := byte == 0x20 || byte == 0x09 || byte == 0x0A || byte == 0x0D

def digit (byte : UInt8) : Bool := 0x30 ≤ byte && byte ≤ 0x39

def lowercase (byte : UInt8) : Bool := 0x61 ≤ byte && byte ≤ 0x7A

def hexadecimal (byte : UInt8) : Bool :=
  digit byte || (0x61 ≤ byte && byte ≤ 0x66) || (0x41 ≤ byte && byte ≤ 0x46)

/-- A byte of a number or of one of the names `true`, `false` and `null`. -/
def word (byte : UInt8) : Bool :=
  digit byte || lowercase byte || byte == 0x2B || byte == 0x2D || byte == 0x2E || byte == 0x45

/-! ### The grammar -/

/-- What stands between the quotes of a string. -/
inductive Characters : List UInt8 → Prop where
  | nil : Characters []
  | plain {byte : UInt8} {rest : List UInt8} (printable : 0x20 ≤ byte) (unquoted : byte ≠ quote)
      (unescaped : byte ≠ backslash) (tail : Characters rest) : Characters (byte :: rest)
  | escape {byte : UInt8} {rest : List UInt8}
      (known : byte ∈ [quote, backslash, 0x2F, 0x62, 0x66, 0x6E, 0x72, 0x74])
      (tail : Characters rest) : Characters (backslash :: byte :: rest)
  | codeUnit {digits rest : List UInt8} (four : digits.length = 4)
      (hex : ∀ byte ∈ digits, hexadecimal byte) (tail : Characters rest) :
      Characters (backslash :: 0x75 :: digits ++ rest)

inductive Nonterminal where
  | value
  | element
  | elements
  | member
  | members
  deriving DecidableEq

open Nonterminal in
/-- The productions. Numbers and names are only known by the bytes they are made of. -/
inductive Derives : Nonterminal → List UInt8 → Prop where
  | word {bytes : List UInt8} (nonempty : bytes ≠ []) (words : ∀ byte ∈ bytes, word byte) :
      Derives value bytes
  | string {bytes : List UInt8} (characters : Characters bytes) :
      Derives value (quote :: bytes ++ [quote])
  | emptyArray {bytes : List UInt8} (blanks : ∀ byte ∈ bytes, blank byte) :
      Derives value (openBracket :: bytes ++ [closeBracket])
  | array {bytes : List UInt8} (items : Derives elements bytes) :
      Derives value (openBracket :: bytes ++ [closeBracket])
  | emptyObject {bytes : List UInt8} (blanks : ∀ byte ∈ bytes, blank byte) :
      Derives value (openBrace :: bytes ++ [closeBrace])
  | object {bytes : List UInt8} (items : Derives members bytes) :
      Derives value (openBrace :: bytes ++ [closeBrace])
  | element {before bytes after : List UInt8} (blanksBefore : ∀ byte ∈ before, blank byte)
      (item : Derives value bytes) (blanksAfter : ∀ byte ∈ after, blank byte) :
      Derives element (before ++ bytes ++ after)
  | lastElement {bytes : List UInt8} (item : Derives element bytes) : Derives elements bytes
  | elements {bytes rest : List UInt8} (item : Derives element bytes)
      (items : Derives elements rest) : Derives elements (bytes ++ comma :: rest)
  | member {before key after bytes : List UInt8} (blanksBefore : ∀ byte ∈ before, blank byte)
      (characters : Characters key) (blanksAfter : ∀ byte ∈ after, blank byte)
      (item : Derives element bytes) :
      Derives member (before ++ (quote :: key ++ [quote]) ++ after ++ colon :: bytes)
  | lastMember {bytes : List UInt8} (item : Derives member bytes) : Derives members bytes
  | members {bytes rest : List UInt8} (item : Derives member bytes)
      (items : Derives members rest) : Derives members (bytes ++ comma :: rest)

/-- A JSON text is one value with blanks around it. -/
def Text (bytes : List UInt8) : Prop := Derives .element bytes

variable {bytes : List UInt8}

theorem element_of_value (item : Derives .value bytes) : Derives .element bytes := by
  have whole := @Derives.element [] bytes [] (fun _ => nofun) item fun _ => nofun
  rwa [List.nil_append, List.append_nil] at whole

/-! ### The scanner -/

/-- Where a byte stands: between values, in a string, right after a backslash, or after the end
of a string or of a bracketed value; always with the number of brackets still open. -/
inductive Place where
  | between (depth : Nat)
  | inside (depth : Nat)
  | escaped (depth : Nat)
  | closed (depth : Nat)
  deriving DecidableEq

def close : Nat → Option Place
  | 0 => none
  | depth + 1 => some (.closed depth)

def next : Place → UInt8 → Option Place
  | .between depth, byte =>
      if byte = quote then some (.inside depth)
      else if byte = openBrace ∨ byte = openBracket then some (.between (depth + 1))
      else if byte = closeBrace ∨ byte = closeBracket then close depth
      else some (.between depth)
  | .inside depth, byte =>
      if byte = quote then some (.closed depth)
      else if byte = backslash then some (.escaped depth)
      else some (.inside depth)
  | .escaped depth, _ => some (.inside depth)
  | .closed depth, byte =>
      if blank byte then some (.closed depth)
      else if byte = closeBrace ∨ byte = closeBracket then close depth
      else if (byte = comma ∨ byte = colon) ∧ depth ≠ 0 then some (.between depth)
      else none

def scan (place : Place) (bytes : List UInt8) : Option Place := bytes.foldlM next place

@[simp] theorem scan_nil (place : Place) : scan place [] = some place := rfl

theorem scan_cons (place : Place) (byte : UInt8) (bytes : List UInt8) :
    scan place (byte :: bytes) = (next place byte).bind fun place => scan place bytes := rfl

theorem scan_append (place : Place) (first second : List UInt8) :
    scan place (first ++ second) = (scan place first).bind fun place => scan place second := by
  rw [scan, List.foldlM_append]
  rfl

/-- Between values, or after one, at a depth. -/
def Place.Settled (place : Place) (depth : Nat) : Prop :=
  place = .between depth ∨ place = .closed depth

/-! ### What the grammar derives is scanned to its end -/

variable {place : Place}

theorem scan_stays (stays : ∀ byte ∈ bytes, next place byte = some place) :
    scan place bytes = some place := by
  induction bytes with
  | nil => rfl
  | cons byte bytes ih =>
      rw [scan_cons, stays byte List.mem_cons_self]
      exact ih fun other member => stays other (List.mem_cons_of_mem _ member)

variable {byte : UInt8}

theorem next_between_blank (isBlank : blank byte) (depth : Nat) :
    next (.between depth) byte = some (.between depth) := by
  simp only [blank, Bool.or_eq_true, beq_iff_eq] at isBlank
  rcases isBlank with ((rfl | rfl) | rfl) | rfl <;> rfl

theorem next_between_word (isWord : word byte) (depth : Nat) :
    next (.between depth) byte = some (.between depth) := by
  have different : ∀ byte : UInt8, word byte → byte ≠ quote ∧
      ¬(byte = openBrace ∨ byte = openBracket) ∧ ¬(byte = closeBrace ∨ byte = closeBracket) := by
    intro byte isWord
    refine ⟨?_, ?_, ?_⟩
    · rintro rfl
      exact absurd isWord (by decide)
    · rintro (rfl | rfl) <;> exact absurd isWord (by decide)
    · rintro (rfl | rfl) <;> exact absurd isWord (by decide)
  obtain ⟨unquoted, unopened, unclosed⟩ := different byte isWord
  rw [next, if_neg unquoted, if_neg unopened, if_neg unclosed]

theorem scan_characters (characters : Characters bytes) (depth : Nat) :
    scan (.inside depth) bytes = some (.inside depth) := by
  have hexadecimalStays : ∀ byte : UInt8, hexadecimal byte →
      next (.inside depth) byte = some (.inside depth) := by
    intro byte hex
    have unquoted : byte ≠ quote := by
      rintro rfl
      exact absurd hex (by decide)
    have unescaped : byte ≠ backslash := by
      rintro rfl
      exact absurd hex (by decide)
    rw [next, if_neg unquoted, if_neg unescaped]
  induction characters with
  | nil => rfl
  | plain printable unquoted unescaped tail ih =>
      rw [scan_cons, next, if_neg unquoted, if_neg unescaped]
      exact ih
  | escape known tail ih =>
      rw [scan_cons]
      exact ih
  | codeUnit four hex tail ih =>
      rw [List.cons_append, List.cons_append, scan_cons]
      change scan (.inside depth) (_ ++ _) = _
      rw [scan_append, scan_stays fun byte member => hexadecimalStays byte (hex byte member)]
      exact ih

theorem scan_string (characters : Characters bytes) (depth : Nat) :
    scan (.between depth) (quote :: bytes ++ [quote]) = some (.closed depth) := by
  rw [List.cons_append, scan_cons]
  change scan (.inside depth) (bytes ++ [quote]) = _
  rw [scan_append, scan_characters characters]
  rfl

theorem scan_blanks {depth : Nat} (settled : place.Settled depth)
    (blanks : ∀ byte ∈ bytes, blank byte) : scan place bytes = some place := by
  apply scan_stays
  intro byte member
  rcases settled with rfl | rfl
  · exact next_between_blank (blanks byte member) depth
  · rw [next, if_pos (blanks byte member)]

theorem next_comma {depth : Nat} (settled : place.Settled (depth + 1)) :
    next place comma = some (.between (depth + 1)) := by
  rcases settled with rfl | rfl <;> rfl

theorem next_close {depth : Nat} (settled : place.Settled (depth + 1))
    (closing : byte = closeBrace ∨ byte = closeBracket) :
    next place byte = some (.closed depth) := by
  rcases settled with rfl | rfl <;> rcases closing with rfl | rfl <;> rfl

/-- The lists of items are only derived inside a bracket. -/
def Nonterminal.depth : Nonterminal → Nat → Nat
  | .value, depth | .element, depth => depth
  | .elements, depth | .member, depth | .members, depth => depth + 1

theorem scan_bracketed {opening closing : UInt8} {depth : Nat}
    (opens : opening = openBrace ∨ opening = openBracket)
    (closes : closing = closeBrace ∨ closing = closeBracket)
    (scanned : scan (.between (depth + 1)) bytes = some place) (settled : place.Settled (depth + 1)) :
    scan (.between depth) (opening :: bytes ++ [closing]) = some (.closed depth) := by
  have opened : next (.between depth) opening = some (.between (depth + 1)) := by
    rcases opens with rfl | rfl <;> rfl
  rw [List.cons_append, scan_cons, opened]
  change scan (.between (depth + 1)) (bytes ++ [closing]) = _
  rw [scan_append, scanned]
  change scan place [closing] = _
  rw [scan_cons, next_close settled closes]
  rfl

theorem scan_separated {first rest : List UInt8} {depth : Nat} {place last : Place}
    (scanned : scan (.between (depth + 1)) first = some place) (settled : place.Settled (depth + 1))
    (scannedRest : scan (.between (depth + 1)) rest = some last) :
    scan (.between (depth + 1)) (first ++ comma :: rest) = some last := by
  rw [scan_append, scanned]
  change scan place (comma :: rest) = _
  rw [scan_cons, next_comma settled]
  exact scannedRest

theorem derives_scans {symbol : Nonterminal} (derives : Derives symbol bytes) (depth : Nat) :
    ∃ place, scan (.between (symbol.depth depth)) bytes = some place ∧
      place.Settled (symbol.depth depth) := by
  induction derives generalizing depth with
  | word nonempty words =>
      exact ⟨_, scan_stays fun byte member => next_between_word (words byte member) depth, .inl rfl⟩
  | string characters => exact ⟨_, scan_string characters depth, .inr rfl⟩
  | emptyArray blanks =>
      exact ⟨_, scan_bracketed (.inr rfl) (.inr rfl) (scan_blanks (.inl rfl) blanks) (.inl rfl),
        .inr rfl⟩
  | array items ih =>
      obtain ⟨place, scanned, settled⟩ := ih depth
      exact ⟨_, scan_bracketed (.inr rfl) (.inr rfl) scanned settled, .inr rfl⟩
  | emptyObject blanks =>
      exact ⟨_, scan_bracketed (.inl rfl) (.inl rfl) (scan_blanks (.inl rfl) blanks) (.inl rfl),
        .inr rfl⟩
  | object items ih =>
      obtain ⟨place, scanned, settled⟩ := ih depth
      exact ⟨_, scan_bracketed (.inl rfl) (.inl rfl) scanned settled, .inr rfl⟩
  | element blanksBefore item blanksAfter ih =>
      obtain ⟨place, scanned, settled⟩ := ih depth
      refine ⟨place, ?_, settled⟩
      rw [scan_append, scan_append, scan_blanks (.inl rfl) blanksBefore]
      change (scan (.between depth) _).bind _ = _
      rw [show scan (.between depth) _ = _ from scanned]
      exact scan_blanks settled blanksAfter
  | lastElement item ih => exact ih (depth + 1)
  | elements item items firstHypothesis restHypothesis =>
      obtain ⟨place, scanned, settled⟩ := firstHypothesis (depth + 1)
      obtain ⟨last, scannedRest, settledRest⟩ := restHypothesis depth
      exact ⟨last, scan_separated scanned settled scannedRest, settledRest⟩
  | member blanksBefore characters blanksAfter item ih =>
      obtain ⟨place, scanned, settled⟩ := ih (depth + 1)
      refine ⟨place, ?_, settled⟩
      rw [List.append_assoc, List.append_assoc, scan_append, scan_blanks (.inl rfl) blanksBefore]
      change scan (.between (depth + 1)) _ = _
      rw [scan_append, scan_string characters]
      change scan (.closed (depth + 1)) _ = _
      rw [scan_append, scan_blanks (.inr rfl) blanksAfter]
      exact scanned
  | lastMember item ih => exact ih depth
  | members item items firstHypothesis restHypothesis =>
      obtain ⟨place, scanned, settled⟩ := firstHypothesis depth
      obtain ⟨last, scannedRest, settledRest⟩ := restHypothesis depth
      exact ⟨last, scan_separated scanned settled scannedRest, settledRest⟩

theorem text_scans (text : Text bytes) :
    ∃ place, scan (.between 0) bytes = some place ∧ place.Settled 0 :=
  derives_scans text 0

/-! ### An object opened and never closed -/

/-- A bracket is still open, or the text is over. -/
def Place.Opened : Place → Prop
  | .between depth | .inside depth | .escaped depth => depth ≠ 0
  | .closed _ => True

theorem next_opened {place after : Place} (opened : place.Opened)
    (advanced : next place byte = some after) : after.Opened := by
  have closes : ∀ depth, close depth = some after → after.Opened := by
    rintro (_ | depth) closed
    · exact nomatch closed
    · exact Option.some.inj closed ▸ trivial
  cases place with
  | between depth =>
      rw [next] at advanced
      split at advanced
      · exact Option.some.inj advanced ▸ opened
      · split at advanced
        · exact Option.some.inj advanced ▸ Nat.succ_ne_zero depth
        · split at advanced
          · exact closes depth advanced
          · exact Option.some.inj advanced ▸ opened
  | inside depth =>
      rw [next] at advanced
      split at advanced
      · exact Option.some.inj advanced ▸ trivial
      · split at advanced <;> exact Option.some.inj advanced ▸ opened
  | escaped depth => exact Option.some.inj advanced ▸ opened
  | closed depth =>
      rw [next] at advanced
      split at advanced
      · exact Option.some.inj advanced ▸ trivial
      · split at advanced
        · exact closes depth advanced
        · split at advanced
          · rename_i separated
            exact Option.some.inj advanced ▸ separated.2
          · exact nomatch advanced

theorem scan_opened {place after : Place} {bytes : List UInt8} (opened : place.Opened)
    (scanned : scan place bytes = some after) : after.Opened := by
  induction bytes generalizing place with
  | nil => exact Option.some.inj scanned ▸ opened
  | cons byte bytes ih =>
      obtain ⟨middle, advanced, rest⟩ := Option.bind_eq_some_iff.mp scanned
      exact ih (next_opened opened advanced) rest

/-- A whole object whose first key starts with a letter finishes nothing that an opening brace
started: in a string its first quote ends that string before a letter, and anywhere else its own
brace is one too many. -/
theorem opened_append_not_text {torn key : List UInt8} {letter : UInt8}
    (isLetter : lowercase letter) (object : Derives .value (openBrace :: quote :: letter :: key)) :
    ¬ Text (openBrace :: torn ++ openBrace :: quote :: letter :: key) := by
  intro text
  obtain ⟨last, scanned, settled⟩ := text_scans text
  rw [List.cons_append, scan_cons] at scanned
  change scan (.between 1) _ = _ at scanned
  rw [scan_append] at scanned
  obtain ⟨place, before, rest⟩ := Option.bind_eq_some_iff.mp scanned
  have opened : place.Opened := @scan_opened (.between 1) _ _ Nat.one_ne_zero before
  have refused : ∀ depth, next (.closed depth) letter = none := by
    intro depth
    have different : ¬blank letter ∧ ¬(letter = closeBrace ∨ letter = closeBracket) ∧
        ¬(letter = comma ∨ letter = colon) := by
      refine ⟨?_, ?_, ?_⟩
      · simp only [blank, Bool.or_eq_true, beq_iff_eq]
        rintro (((rfl | rfl) | rfl) | rfl) <;> exact absurd isLetter (by decide)
      · rintro (rfl | rfl) <;> exact absurd isLetter (by decide)
      · rintro (rfl | rfl) <;> exact absurd isLetter (by decide)
    rw [next, if_neg different.1, if_neg different.2.1, if_neg fun both => different.2.2 both.1]
  cases place with
  | between depth =>
      obtain ⟨other, whole, ends⟩ := derives_scans object depth
      change scan (.between depth) _ = _ at whole
      cases Option.some.inj (whole.symm.trans rest)
      have zero : depth = 0 := by
        rcases settled with rfl | rfl <;> rcases ends with same | same
        · exact (Place.between.inj same).symm
        · exact nomatch same
        · exact nomatch same
        · exact (Place.closed.inj same).symm
      exact opened zero
  | inside depth | escaped depth =>
      change (next (.closed depth) letter).bind _ = _ at rest
      rw [refused depth] at rest
      exact nomatch rest
  | closed depth =>
      exact nomatch rest

end Hyperloader.Foundations.JsonText
