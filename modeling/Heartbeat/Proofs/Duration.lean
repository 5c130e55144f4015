import Heartbeat.Duration
import Heartbeat.Proofs.Text.Lines
import Heartbeat.Proofs.Text.Lowercase
import Mathlib.Data.List.DropRight
import Mathlib.Data.Nat.Digits.Defs

/-!
# Reading durations

What a text says is told by how it is written: digits, blanks, and the name of a unit in any case.
The reader takes the digits as far as they go, which loses no reading, since no unit starts with a
digit. The place where it cuts the text is counted in characters and used as a number of bytes;
that these are the same is due to the digits in front of it.

* `Writes`: how a number of units is written.
* `parse_eq_ok_iff`: what is read, and as what.
* `digitsEnd`, `parseInPlace?`: the place of the cut, and the reader that cuts there.
* `parse_law`: the law of reading a text.
-/

namespace Heartbeat

open Heartbeat.Text

variable {s digits gap word rest : List Char} {c : Char}

/-! ## Numbers -/

theorem Text.isDigit_iff : isDigit c = true ↔ 48 ≤ c.toNat ∧ c.toNat ≤ 57 := by
  unfold isDigit
  rw [Bool.and_eq_true, decide_eq_true_eq, decide_eq_true_eq]
  exact Iff.rfl

/-- There are no blanks among the digits and the letters. -/
theorem Text.isBlank_of_mem (hlow : 48 ≤ c.toNat) (hhigh : c.toNat ≤ 122) :
    isBlank c = false := by
  refine Bool.eq_false_iff.mpr fun hblank => ?_
  simp only [isBlank, Bool.or_eq_true, Bool.and_eq_true, decide_eq_true_eq, beq_iff_eq] at hblank
  omega

theorem Text.isDigit_of_isBlank (h : isBlank c = true) : isDigit c = false := by
  refine Bool.eq_false_iff.mpr fun hdigit => ?_
  obtain ⟨hlow, hhigh⟩ := isDigit_iff.mp hdigit
  rw [isBlank_of_mem hlow (by omega)] at h
  cases h

/-- The value of digits is that of a numeral with base ten. -/
theorem Text.natOfDigits_eq (digits : List Char) :
    natOfDigits digits = Nat.ofDigits 10 (digits.map digitValue).reverse := by
  rw [Nat.ofDigits_eq_foldr, List.foldr_reverse, List.foldl_map]
  unfold natOfDigits
  congr 1
  funext n c
  exact Nat.add_comm _ _

/-! ## Units -/

namespace DurationUnit

/-- The names of a unit. -/
def names : DurationUnit → List (List Char)
  | .millisecond => [[], ['m', 's']]
  | .second => [['s']]
  | .minute => [['m']]
  | .hour => [['h']]

/-- A word is a name of a unit, up to the case of its letters. -/
def Named (unit : DurationUnit) (word : List Char) : Prop :=
  ∃ name ∈ unit.names, eqIgnoringCase word name = true

theorem ofText?_eq_some_iff {text : List Char} {unit : DurationUnit} :
    ofText? text = some unit ↔ text ∈ unit.names := by
  cases unit <;> grind [ofText?, names]

theorem letter_of_mem_names {unit : DurationUnit} {name : List Char} (h : name ∈ unit.names) :
    ∀ c ∈ name, c = 'm' ∨ c = 's' ∨ c = 'h' := by
  cases unit <;> simp [names] at h <;> grind

theorem isPlain_of_mem_names {unit : DurationUnit} {name : List Char} (h : name ∈ unit.names) :
    name.map lowerAscii = name ∧ ∀ c ∈ name, IsPlain c := by
  have hletter : ∀ c ∈ name, lowerAscii c = c ∧ IsPlain c := by
    intro c hc
    rcases letter_of_mem_names h c hc with rfl | rfl | rfl <;> decide
  refine ⟨?_, fun c hc => (hletter c hc).2⟩
  exact (List.map_congr_left fun c hc => (hletter c hc).1).trans (List.map_id' name)

/-- The units are known by their names, in any case. -/
theorem ofText?_lower {word : List Char} {unit : DurationUnit} :
    ofText? (lower word) = some unit ↔ unit.Named word := by
  rw [ofText?_eq_some_iff]
  unfold Named eqIgnoringCase
  constructor
  · intro hname
    obtain ⟨hlower, hplain⟩ := isPlain_of_mem_names hname
    refine ⟨_, hname, ?_⟩
    rw [beq_iff_eq, hlower]
    exact (lower_eq_iff hplain).mp rfl
  · rintro ⟨name, hname, heq⟩
    obtain ⟨hlower, hplain⟩ := isPlain_of_mem_names hname
    rw [beq_iff_eq, hlower] at heq
    rwa [(lower_eq_iff hplain).mpr heq]

/-- The letters of the names are no digits and no blanks, in any case. -/
theorem not_isDigit_of_lowerAscii
    (h : lowerAscii c = 'm' ∨ lowerAscii c = 's' ∨ lowerAscii c = 'h') :
    isDigit c = false ∧ isBlank c = false := by
  by_cases hupper : 'A' ≤ c ∧ c ≤ 'Z'
  · have hcode : 65 ≤ c.toNat ∧ c.toNat ≤ 90 := hupper
    refine ⟨Bool.eq_false_iff.mpr fun hdigit => ?_, isBlank_of_mem (by omega) (by omega)⟩
    have := isDigit_iff.mp hdigit
    omega
  · have hsame : lowerAscii c = c := by simp_all [lowerAscii]
    rw [hsame] at h
    rcases h with rfl | rfl | rfl <;> decide

/-- A name has letters only. -/
theorem Named.letters {unit : DurationUnit} {word : List Char} (h : unit.Named word) :
    ∀ c ∈ word, isDigit c = false ∧ isBlank c = false := by
  obtain ⟨name, hname, heq⟩ := h
  unfold eqIgnoringCase at heq
  rw [beq_iff_eq, (isPlain_of_mem_names hname).1] at heq
  intro c hc
  have hlower : lowerAscii c ∈ name := heq ▸ List.mem_map_of_mem hc
  exact not_isDigit_of_lowerAscii (letter_of_mem_names hname _ hlower)

end DurationUnit

/-! ## What is written -/

namespace Duration

/-- A text writes a number of units: digits, blanks and a name of the unit. -/
inductive Writes (n : Nat) (unit : DurationUnit) : List Char → Prop
  | intro {digits gap word : List Char} (nonempty : digits ≠ [])
      (digit : ∀ c ∈ digits, isDigit c = true)
      (value : Nat.ofDigits 10 (digits.map digitValue).reverse = n) (blank : AllBlank gap)
      (named : unit.Named word) : Writes n unit (digits ++ (gap ++ word))

/-- What follows the digits does not start with another digit. -/
theorem takeWhile_isDigit (hdigits : ∀ c ∈ digits, isDigit c = true)
    (hrest : ∀ c ∈ rest, isDigit c = false) :
    (digits ++ rest).takeWhile isDigit = digits ∧ (digits ++ rest).dropWhile isDigit = rest := by
  have hnone : rest.takeWhile isDigit = [] ∧ rest.dropWhile isDigit = rest := by
    cases rest with
    | nil => exact ⟨rfl, rfl⟩
    | cons c rest => simp [hrest c List.mem_cons_self]
  rw [List.takeWhile_append_of_pos hdigits, List.dropWhile_append_of_pos hdigits, hnone.1,
    hnone.2, List.append_nil]
  exact ⟨rfl, rfl⟩

theorem trim_of_not_blank (h : ∀ c ∈ word, isBlank c = false) : trim word = word := by
  have hleft : trimLeft word = word := by
    rw [trimLeft, List.dropWhile_eq_self_iff]
    simp_all
  rw [trim, hleft]
  exact List.rdropWhile_eq_self_iff.mpr fun hsome => by simp [h _ (List.getLast_mem hsome)]

/-- In a text without blanks at its ends, what follows the digits has blanks at its start only. -/
theorem exists_gap (hs : trim s = s) (hrest : s = digits ++ rest) :
    ∃ gap, AllBlank gap ∧ rest = gap ++ trim rest := by
  refine ⟨rest.takeWhile isBlank, fun c hc => List.mem_takeWhile_imp hc, ?_⟩
  have hself : trimRight s = s := by
    calc trimRight s = trimRight (trim s) := by rw [hs]
      _ = trim s := List.rdropWhile_idempotent isBlank (trimLeft s)
      _ = s := hs
  have hright : trimRight (trimLeft rest) = trimLeft rest := by
    -- it ends as the whole text does, which is not in a blank
    refine List.rdropWhile_eq_self_iff.mpr fun hsome => ?_
    have hsuffix : trimLeft rest <:+ s :=
      (List.dropWhile_suffix isBlank).trans ⟨digits, hrest.symm⟩
    rw [hsuffix.getLast hsome]
    exact List.rdropWhile_eq_self_iff.mp hself (hsuffix.ne_nil hsome)
  rw [trim, hright]
  exact List.takeWhile_append_dropWhile.symm

/-- The digits and the unit of a text that writes a number of units are where it is cut. -/
theorem cut_of_writes {unit : DurationUnit} (hdigits : ∀ c ∈ digits, isDigit c = true)
    (hgap : AllBlank gap) (hnamed : unit.Named word) :
    (digits ++ (gap ++ word)).takeWhile isDigit = digits ∧
      trim ((digits ++ (gap ++ word)).dropWhile isDigit) = word := by
  have hrest : ∀ c ∈ gap ++ word, isDigit c = false := by
    intro c hc
    rcases List.mem_append.mp hc with hc | hc
    · exact isDigit_of_isBlank (hgap c hc)
    · exact (hnamed.letters c hc).1
  obtain ⟨htake, hdrop⟩ := takeWhile_isDigit hdigits hrest
  refine ⟨htake, ?_⟩
  rw [hdrop, trim_blanks_append hgap, trim_of_not_blank fun c hc => (hnamed.letters c hc).2]

theorem ofParts_eq_ok_iff {d : Millis} : ofParts s digits rest = .ok d ↔
    digits ≠ [] ∧ natOfDigits digits ≤ maxWord64 ∧ ∃ unit : DurationUnit,
      unit.Named (trim rest) ∧ natOfDigits digits * unit.seconds ≤ maxWord64 ∧
        d = natOfDigits digits * unit.millis := by
  simp only [← DurationUnit.ofText?_lower]
  unfold ofParts
  by_cases hsome : digits = []
  · simp [hsome]
  by_cases hmax : maxWord64 < natOfDigits digits
  · simp [hsome, hmax, Nat.not_le.mpr hmax]
  cases hunit : DurationUnit.ofText? (lower (trim rest)) with
  | none => simp [hsome, hmax, hunit]
  | some unit =>
    by_cases hlarge : maxWord64 < natOfDigits digits * unit.seconds
    · simp [hsome, hmax, hunit, hlarge, Nat.not_le.mpr hlarge]
    · simp [hsome, hmax, hunit, hlarge, Nat.not_lt.mp hmax, Nat.not_lt.mp hlarge,
        eq_comm (a := d)]

/-- **What is read**: the texts that write a number of units, unless it is too large. -/
theorem parseTrimmed_eq_ok_iff {d : Millis} (hs : trim s = s) : parseTrimmed s = .ok d ↔
    ∃ n unit, Writes n unit s ∧ n ≤ maxWord64 ∧ n * unit.seconds ≤ maxWord64 ∧
      d = n * unit.millis := by
  unfold parseTrimmed
  constructor
  · intro h
    split at h
    · cases h
    · obtain ⟨hsome, hmax, unit, hnamed, hlarge, hd⟩ := ofParts_eq_ok_iff.mp h
      obtain ⟨gap, hgap, hrest⟩ := exists_gap hs List.takeWhile_append_dropWhile.symm
      refine ⟨_, unit, ?_, hmax, hlarge, hd⟩
      have hwrites : Writes _ unit _ := .intro hsome (fun c hc => List.mem_takeWhile_imp hc)
        (natOfDigits_eq _).symm hgap hnamed
      rwa [← hrest, List.takeWhile_append_dropWhile] at hwrites
  · rintro ⟨n, unit, ⟨hsome, hall, hvalue, hgap, hnamed⟩, hmax, hlarge, hd⟩
    obtain ⟨htake, hword⟩ := cut_of_writes hall hgap hnamed
    rw [if_neg (by simp [hsome]), htake, ofParts_eq_ok_iff, hword, natOfDigits_eq, hvalue]
    exact ⟨hsome, hmax, unit, hnamed, hlarge, hd⟩

theorem parse_eq_ok_iff {text : String} {d : Millis} : parse text = .ok d ↔
    ∃ n unit, Writes n unit (trim text.toList) ∧ n ≤ maxWord64 ∧ n * unit.seconds ≤ maxWord64 ∧
      d = n * unit.millis :=
  parseTrimmed_eq_ok_iff (trim_trim text.toList)

/-! ## The place of the cut -/

/-- The place where the digits of a text end: as many bytes from its start as there are characters
in front of the first that is no digit, or all of its bytes if there is none. -/
def digitsEnd (text : String) : String.Pos.Raw :=
  ⟨(text.toList.findIdx? fun c => !isDigit c).getD text.utf8ByteSize⟩

/-- Reads a duration by cutting the text where its digits end. There is no answer if that is not a
place between two characters. -/
def parseInPlace? (text : String) : Option (Except DurationError Millis) :=
  let s := trimmed text
  if s = "" then some (.error .empty)
  else if h : (digitsEnd s).isValid s = true then
    let place := s.pos (digitsEnd s) (String.Pos.Raw.isValid_eq_true_iff.mp h)
    some (ofParts s.toList (s.sliceTo place).copy.toList (s.sliceFrom place).copy.toList)
  else none

/-- A digit takes one byte. -/
theorem utf8ByteSize_digits (h : ∀ c ∈ digits, isDigit c = true) :
    (String.ofList digits).utf8ByteSize = digits.length := by
  induction digits with
  | nil => rfl
  | cons c digits ih =>
    have hbyte : c.utf8Size = 1 := by
      rw [Char.utf8Size_eq_one_iff, UInt32.le_iff_toNat_le]
      exact Nat.le_trans (isDigit_iff.mp (h c List.mem_cons_self)).2 (by decide)
    rw [String.ofList_cons, String.utf8ByteSize_append, String.utf8ByteSize_singleton, hbyte,
      ih fun c hc => h c (List.mem_cons_of_mem _ hc), List.length_cons, Nat.add_comm]

/-- **The place of the cut is where the digits end.** -/
theorem digitsEnd_eq (text : String) :
    digitsEnd text = (String.ofList (text.toList.takeWhile isDigit)).rawEndPos := by
  rw [digitsEnd, String.Pos.Raw.ext_iff, String.byteIdx_rawEndPos]
  cases hfirst : text.toList.findIdx? fun c => !isDigit c with
  | none =>
    -- without another character all bytes are those of the digits
    have hall : text.toList.takeWhile isDigit = text.toList := by
      simpa using List.findIdx?_eq_none_iff.mp hfirst
    rw [hall, String.ofList_toList]
    rfl
  | some i =>
    obtain ⟨hi, hindex⟩ := List.findIdx?_eq_some_iff_findIdx_eq.mp hfirst
    rw [utf8ByteSize_digits fun c hc => List.mem_takeWhile_imp hc,
      List.takeWhile_eq_take_findIdx_not, hindex, List.length_take, Nat.min_eq_left hi.le]
    rfl

theorem isValid_digitsEnd (text : String) : (digitsEnd text).IsValid text := by
  rw [String.Pos.Raw.isValid_iff_exists_append]
  refine ⟨_, String.ofList (text.toList.dropWhile isDigit), ?_, digitsEnd_eq text⟩
  rw [← String.ofList_append, List.takeWhile_append_dropWhile, String.ofList_toList]

/-- **Cutting in place never fails**, and reads the same. -/
theorem parseInPlace?_eq (text : String) : parseInPlace? text = some (parse text) := by
  have hchars : (trimmed text).toList = trim text.toList := String.toList_ofList
  have hempty : trimmed text = "" ↔ trim text.toList = [] := by
    rw [← hchars, String.toList_eq_nil_iff]
  unfold parseInPlace? parse parseTrimmed
  by_cases hs : trimmed text = ""
  · simp [hs, hempty.mp hs]
  · have hvalid := isValid_digitsEnd (trimmed text)
    have hsplits : ((trimmed text).pos _ hvalid).Splits
        (String.ofList ((trim text.toList).takeWhile isDigit))
        (String.ofList ((trim text.toList).dropWhile isDigit)) := by
      refine ⟨?_, ?_⟩
      · rw [← String.ofList_append, List.takeWhile_append_dropWhile]
        rfl
      · rw [← hchars, ← digitsEnd_eq]
        rfl
    simp [hs, hempty.not.mp hs, String.Pos.Raw.isValid_eq_true_iff.mpr hvalid, hchars,
      hsplits.copy_sliceTo_eq, hsplits.copy_sliceFrom_eq]

/-! ## The law -/

/-- **The law of reading** a text as a duration. -/
structure ParseLaw (text : String) : Prop where
  /-- A text is a duration if it writes a number of units that is not too large, and then it is
  that many units. -/
  read : ∀ d, parse text = .ok d ↔ ∃ n unit, Writes n unit (trim text.toList) ∧
    n ≤ maxWord64 ∧ n * unit.seconds ≤ maxWord64 ∧ d = n * unit.millis
  /-- The text is cut between two characters, or at one of its ends. -/
  boundary : (digitsEnd (trimmed text)).IsValid (trimmed text)
  /-- So the reader that cuts in place gives an answer, the same one. -/
  in_place : parseInPlace? text = some (parse text)

/-- **Durations are read as they are written**, whatever the text is. -/
theorem parse_law (text : String) : ParseLaw text where
  read _ := parse_eq_ok_iff
  boundary := isValid_digitsEnd (trimmed text)
  in_place := parseInPlace?_eq text

example : parse " 007 \u2003S" = .ok 7000 ∧
    parse "7 \u017F" = .error (.unknownUnit "\u017F") := by
  decide +kernel

end Duration

end Heartbeat
