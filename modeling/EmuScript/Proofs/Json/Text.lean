import EmuScript.Json.Reader
import EmuScript.Json.Writer
import Mathlib.Data.List.Nodup

/-!
# Writing and reading JSON text

A value is written as a list of characters that does not depend on what was written before.
Reading takes exactly these characters off the front of a text, whatever escapes its
strings need, and gives the value back.
-/

set_option autoImplicit false

namespace EmuScript.Json

open Numeric

/-- The keys of each object differ. -/
inductive Proper : Json → Prop where
  | null : Proper .null
  | bool (value : Bool) : Proper (.bool value)
  | integer (value : Int) : Proper (.integer value)
  | real (negative : Bool) (magnitude : Decimal) : Proper (.real negative magnitude)
  | string (value : String) : Proper (.string value)
  | array {elements : List Json} (each : ∀ element ∈ elements, Proper element) :
      Proper (.array elements)
  | object {members : List (String × Json)} (distinct : (members.map Prod.fst).Nodup)
      (each : ∀ member ∈ members, Proper member.2) : Proper (.object members)

/-! ## Spelling -/

def spellChar (char : Char) : List Char :=
  match escapeLetter? char with
  | some letter => ['\\', letter]
  | none =>
      if char.toNat < 0x20 then
        ['\\', 'u', '0', '0', escapeDigit (char.toNat / 16), escapeDigit (char.toNat % 16)]
      else [char]

def spellString (text : String) : List Char :=
  '"' :: (text.toList.flatMap spellChar ++ ['"'])

def spellNat (value : Nat) : List Char :=
  Nat.toDigits 10 value

def spellInt : Int → List Char
  | .ofNat value => spellNat value
  | .negSucc value => '-' :: spellNat (value + 1)

mutual

def spell : Json → List Char
  | null => ['n', 'u', 'l', 'l']
  | bool true => ['t', 'r', 'u', 'e']
  | bool false => ['f', 'a', 'l', 's', 'e']
  | integer value => spellInt value
  | real true magnitude => '-' :: (spellNat magnitude.digits ++ 'e' :: spellInt magnitude.exponent)
  | real false magnitude => spellNat magnitude.digits ++ 'e' :: spellInt magnitude.exponent
  | string value => spellString value
  | array [] => ['[', ']']
  | array (element :: rest) => '[' :: (spell element ++ spellElements rest)
  | object [] => ['\x7b', '\x7d']
  | object ((key, value) :: rest) =>
      '\x7b' :: (spellString key ++ ':' :: (spell value ++ spellMembers rest))

/-- The elements after the first one, and the end of the array. -/
def spellElements : List Json → List Char
  | [] => [']']
  | element :: rest => ',' :: (spell element ++ spellElements rest)

/-- The members after the first one, and the end of the object. -/
def spellMembers : List (String × Json) → List Char
  | [] => ['\x7d']
  | (key, value) :: rest => ',' :: (spellString key ++ ':' :: (spell value ++ spellMembers rest))

end

/-! ## Writing -/

theorem writeChar_toList (text : String) (char : Char) :
    (writeChar text char).toList = text.toList ++ spellChar char := by
  unfold writeChar spellChar
  cases escapeLetter? char with
  | some letter => simp
  | none =>
      simp only
      split
      · simp
      · simp

theorem writeString_toList (text value : String) :
    (writeString text value).toList = text.toList ++ spellString value := by
  have folded (chars : List Char) (text : String) :
      (chars.foldl writeChar text).toList = text.toList ++ chars.flatMap spellChar := by
    induction chars generalizing text with
    | nil => simp
    | cons char rest ih => simp [ih, writeChar_toList]
  simp [writeString, spellString, folded]

theorem repr_toList (value : Int) : value.repr.toList = spellInt value := by
  cases value <;> simp [spellInt, spellNat, Int.repr]

theorem writeElements_toList {elements : List Json}
    (each : ∀ element ∈ elements, ∀ text : String,
      (write text element).toList = text.toList ++ spell element) (text : String) :
    ((writeElements text false elements).push ']').toList =
      text.toList ++ spellElements elements := by
  induction elements generalizing text with
  | nil => simp [writeElements, spellElements]
  | cons element rest ih =>
      obtain ⟨first, others⟩ := List.forall_mem_cons.mp each
      simp [writeElements, spellElements, ih others, first]

theorem writeMembers_toList {members : List (String × Json)}
    (each : ∀ member ∈ members, ∀ text : String,
      (write text member.2).toList = text.toList ++ spell member.2) (text : String) :
    ((writeMembers text false members).push '\x7d').toList =
      text.toList ++ spellMembers members := by
  induction members generalizing text with
  | nil => simp [writeMembers, spellMembers]
  | cons member rest ih =>
      obtain ⟨first, others⟩ := List.forall_mem_cons.mp each
      simp [writeMembers, spellMembers, ih others, first, writeString_toList]

theorem Proper.write_toList {value : Json} (proper : value.Proper) (text : String) :
    (write text value).toList = text.toList ++ spell value := by
  induction proper generalizing text with
  | null => simp [write, spell]
  | bool value =>
      cases value with
      | true => simp [write, spell, show (toString true).toList = ['t', 'r', 'u', 'e'] from rfl]
      | false =>
          simp [write, spell, show (toString false).toList = ['f', 'a', 'l', 's', 'e'] from rfl]
  | integer value => simp [write, spell, repr_toList]
  | real negative magnitude => cases negative <;> simp [write, spell, repr_toList, spellNat]
  | string value => exact writeString_toList text value
  | @array elements each ih =>
      cases elements with
      | nil => simp [write, writeElements, spell]
      | cons element rest =>
          obtain ⟨first, others⟩ := List.forall_mem_cons.mp ih
          have later := writeElements_toList others (write (text.push '[') element)
          simpa [write, writeElements, spell, first] using later
  | @object members distinct each ih =>
      cases members with
      | nil => simp [write, writeMembers, spell]
      | cons member rest =>
          obtain ⟨first, others⟩ := List.forall_mem_cons.mp ih
          have later := writeMembers_toList others
            (write ((writeString (text.push '\x7b') member.1).push ':') member.2)
          simpa [write, writeMembers, spell, first, writeString_toList] using later

theorem Proper.text_toList {value : Json} (proper : value.Proper) :
    value.text.toList = spell value := by
  simpa [text] using proper.write_toList ""

/-! ## Reading -/

/-- A number does not go on with the text. -/
def Stops (chars : List Char) : Prop :=
  ∀ char ∈ chars.head?, digitValue? char = none ∧ char ≠ '.' ∧ char ≠ 'e' ∧ char ≠ 'E'

theorem readDigits_append {digits : List Char} (all : ∀ char ∈ digits, char.isDigit)
    {rest : List Char} (stops : ∀ char ∈ rest.head?, digitValue? char = none) (value count : Nat) :
    readDigits (digits ++ rest) value count =
      (Nat.ofDigitChars 10 digits value, count + digits.length, rest) := by
  induction digits generalizing value count with
  | nil =>
      cases rest with
      | nil => rfl
      | cons char rest => simp [readDigits, stops char rfl, Nat.ofDigitChars]
  | cons digit digits ih =>
      obtain ⟨first, others⟩ := List.forall_mem_cons.mp all
      simp [readDigits, digitValue?, first, ih others, Nat.ofDigitChars, Nat.mul_comm, Nat.add_comm,
        Nat.add_left_comm]

theorem readSomeDigits_nat (number : Nat) {rest : List Char}
    (stops : ∀ char ∈ rest.head?, digitValue? char = none) :
    ∃ count, readSomeDigits (spellNat number ++ rest) 0 = some (number, count, rest) := by
  have all : ∀ char ∈ spellNat number, char.isDigit := fun char member =>
    Nat.isDigit_of_mem_toDigits (by decide) (by decide) member
  have read : readDigits (spellNat number ++ rest) 0 0 =
      (number, (spellNat number).length, rest) := by
    rw [readDigits_append all stops, spellNat, Nat.ofDigitChars_toDigits (by decide) (by decide),
      Nat.zero_add]
  have counted : (spellNat number).length ≠ 0 := Nat.ne_of_gt Nat.length_toDigits_pos
  exact ⟨(spellNat number).length, by simp only [readSomeDigits, read, counted, if_false]⟩

theorem spellNat_cons (number : Nat) :
    ∃ digit rest, spellNat number = digit :: rest ∧ digit.isDigit := by
  obtain ⟨digit, rest, spelled⟩ := List.exists_cons_of_ne_nil
    (Nat.toDigits_ne_nil : Nat.toDigits 10 number ≠ [])
  have member : digit ∈ Nat.toDigits 10 number := by simp [spelled]
  exact ⟨digit, rest, spelled, Nat.isDigit_of_mem_toDigits (by decide) (by decide) member⟩

/-- Only the number zero is written with a zero in front. -/
theorem spellNat_head_ne_zero {number : Nat} (positive : 0 < number) :
    (spellNat number).head? ≠ some '0' := by
  induction number using Nat.strongRecOn with
  | ind number ih =>
      unfold spellNat
      by_cases small : number < 10
      · have digits : ∀ digit < 10, 0 < digit → [Nat.digitChar digit].head? ≠ some '0' := by decide
        rw [Nat.toDigits_of_lt_base small]
        exact digits number small positive
      · have shorter : (spellNat (number / 10)).head? ≠ some '0' :=
          ih (number / 10) (by omega) (by omega)
        obtain ⟨digit, rest, spelled, -⟩ := spellNat_cons (number / 10)
        rw [spelled] at shorter
        rw [Nat.toDigits_of_base_le (by decide) (Nat.not_lt.mp small), ← spellNat, spelled]
        exact shorter

theorem readWhole_nat (number : Nat) {rest : List Char}
    (stops : ∀ char ∈ rest.head?, digitValue? char = none) :
    readWhole (spellNat number ++ rest) = some (number, rest) := by
  cases number with
  | zero =>
      have ends : rest.head?.any Char.isDigit = false := by
        cases rest with
        | nil => rfl
        | cons char rest => simpa [digitValue?] using stops char rfl
      simp [spellNat, readWhole, ends]
  | succ number =>
      obtain ⟨count, read⟩ := readSomeDigits_nat (number + 1) stops
      obtain ⟨digit, others, spelled, -⟩ := spellNat_cons (number + 1)
      have other := spellNat_head_ne_zero (Nat.succ_pos number)
      rw [spelled] at other read ⊢
      rw [List.cons_append, readWhole]
      · rw [← List.cons_append, read]
        rfl
      · rintro rest' ⟨⟩
        exact other rfl

theorem readExponent_int (exponent : Int) {rest : List Char}
    (stops : ∀ char ∈ rest.head?, digitValue? char = none) :
    readExponent (spellInt exponent ++ rest) = some (exponent, rest) := by
  cases exponent with
  | ofNat value =>
      obtain ⟨count, digits⟩ := readSomeDigits_nat value stops
      obtain ⟨digit, others, spelled, isDigit⟩ := spellNat_cons value
      rw [spellInt, spelled, List.cons_append, readExponent]
      · rw [← List.cons_append, ← spelled, digits]
        rfl
      · rintro _ ⟨⟩
        cases isDigit
      · rintro _ ⟨⟩
        cases isDigit
  | negSucc value =>
      obtain ⟨count, digits⟩ := readSomeDigits_nat (value + 1) stops
      simp only [spellInt, List.cons_append, readExponent, digits]
      rfl

theorem readMagnitude_nat (negative : Bool) (number : Nat) {rest : List Char} (stops : Stops rest) :
    readMagnitude negative (spellNat number ++ rest) =
      if negative then
        if number = 0 then some (.real true ⟨0, 0⟩, rest) else some (.integer (-number), rest)
      else some (.integer number, rest) := by
  have whole := readWhole_nat number fun char member => (stops char member).1
  cases rest with
  | nil => simp only [readMagnitude, whole, Option.bind_eq_bind, Option.bind_some, Option.pure_def]
  | cons char rest =>
      obtain ⟨-, point, lower, upper⟩ := stops char rfl
      simp [readMagnitude, whole, point, lower, upper]

theorem readMagnitude_real (negative : Bool) (magnitude : Decimal) {rest : List Char}
    (stops : ∀ char ∈ rest.head?, digitValue? char = none) :
    readMagnitude negative
        (spellNat magnitude.digits ++ 'e' :: (spellInt magnitude.exponent ++ rest)) =
      some (.real negative magnitude, rest) := by
  have mark : ∀ char ∈ ('e' :: (spellInt magnitude.exponent ++ rest)).head?,
      digitValue? char = none := by
    rintro _ ⟨⟩
    rfl
  have whole := readWhole_nat magnitude.digits mark
  simp [readMagnitude, whole, readExponent_int _ stops]

/-! ## Strings -/

theorem hexValue?_escapeDigit (value : Nat) (small : value < 16) :
    hexValue? (escapeDigit value) = some value := by
  revert value
  decide

theorem readEscapedCode_control {char : Char} (control : char.toNat < 0x20) (rest : List Char) :
    readEscapedCode
        ('0' :: '0' :: escapeDigit (char.toNat / 16) :: escapeDigit (char.toNat % 16) :: rest) =
      some (char, rest) := by
  have unit : readCodeUnit
      ('0' :: '0' :: escapeDigit (char.toNat / 16) :: escapeDigit (char.toNat % 16) :: rest) =
        some (char.toNat, rest) := by
    have zero : hexValue? '0' = some 0 := rfl
    have high := hexValue?_escapeDigit (char.toNat / 16) (by omega)
    have low := hexValue?_escapeDigit (char.toNat % 16) (by omega)
    have whole : char.toNat / 16 * 16 + char.toNat % 16 = char.toNat := Nat.div_add_mod' _ _
    simp [readCodeUnit, zero, high, low, whole]
  have single : isHighSurrogate char.toNat = false ∧ isLowSurrogate char.toNat = false := by
    simp only [isHighSurrogate, isLowSurrogate, Bool.and_eq_false_iff, decide_eq_false_iff_not]
    omega
  simp [readEscapedCode, unit, single, Char.ofNat_toNat]

/-- A character that is written as a backslash and a letter is what they stand for. -/
theorem escapedChar?_letter {char letter : Char} (escaped : escapeLetter? char = some letter) :
    letter ≠ 'u' ∧ escapedChar? letter = some char := by
  unfold escapeLetter? at escaped
  split at escaped
  all_goals cases escaped
  all_goals exact ⟨by decide, rfl⟩

/-- A character that is not written with a backslash is neither a quote nor a backslash. -/
theorem plain_of_escapeLetter? {char : Char} (plain : escapeLetter? char = none) :
    char ≠ '"' ∧ char ≠ '\\' := by
  constructor
  · rintro rfl
    cases plain
  · rintro rfl
    cases plain

theorem readStringBody_char (char : Char) (rest : List Char) (fuel : Nat) (read : List Char) :
    readStringBody (fuel + 1) (spellChar char ++ rest) read =
      readStringBody fuel rest (char :: read) := by
  unfold spellChar
  cases escaped : escapeLetter? char with
  | some letter =>
      obtain ⟨other, means⟩ := escapedChar?_letter escaped
      simp [readStringBody, means]
  | none =>
      obtain ⟨quote, slash⟩ := plain_of_escapeLetter? escaped
      simp only
      split
      case isTrue control => simp [readStringBody, readEscapedCode_control control]
      case isFalse printable => simp [readStringBody, slash, printable]

theorem readStringBody_append (text rest : List Char) (fuel : Nat) (enough : text.length < fuel)
    (read : List Char) :
    readStringBody fuel (text.flatMap spellChar ++ '"' :: rest) read =
      some (text.reverse ++ read, rest) := by
  induction text generalizing fuel read with
  | nil =>
      cases fuel with
      | zero => cases enough
      | succ fuel => rfl
  | cons char text ih =>
      cases fuel with
      | zero => cases enough
      | succ fuel =>
          rw [List.flatMap_cons, List.append_assoc, readStringBody_char,
            ih fuel (Nat.lt_of_succ_lt_succ enough)]
          simp

theorem readString_append (text : String) (rest : List Char) (fuel : Nat)
    (enough : text.toList.length < fuel) :
    readString fuel (text.toList.flatMap spellChar ++ '"' :: rest) = some (text, rest) := by
  simp [readString, readStringBody_append _ rest fuel enough, String.ofList_toList]

/-- A string needs no more steps than it has characters when it is written. -/
theorem length_spellString (text : String) :
    text.toList.length + 2 ≤ (spellString text).length := by
  have each (char : Char) : 1 ≤ (spellChar char).length := by
    unfold spellChar
    cases escapeLetter? char with
    | some letter => simp
    | none =>
        simp only
        split
        · simp
        · simp
  have whole (chars : List Char) : chars.length ≤ (chars.flatMap spellChar).length := by
    induction chars with
    | nil => simp
    | cons char rest ih =>
        have first := each char
        simp only [List.flatMap_cons, List.length_cons, List.length_append]
        omega
  have := whole text.toList
  simp only [spellString, List.length_cons, List.length_append, List.length_nil]
  omega

/-! ## Values -/

theorem skipBlanks_cons (char : Char) (visible : isBlank char = false) (rest : List Char) :
    skipBlanks (char :: rest) = char :: rest := by
  simp [skipBlanks, visible]

theorem isBlank_digit {digit : Char} (isDigit : digit.isDigit) : isBlank digit = false := by
  simp only [isBlank, Bool.or_eq_false_iff, decide_eq_false_iff_not]
  refine ⟨⟨⟨?_, ?_⟩, ?_⟩, ?_⟩ <;> rintro rfl <;> cases isDigit

theorem readValue_digit {digit : Char} (isDigit : digit.isDigit) (fuel : Nat) (rest : List Char) :
    readValue (fuel + 1) (digit :: rest) = readMagnitude false (digit :: rest) := by
  have other {char : Char} (plain : char.isDigit = false) : digit ≠ char := by
    rintro rfl
    rw [plain] at isDigit
    cases isDigit
  rw [readValue, skipBlanks_cons _ (isBlank_digit isDigit)]
  split
  all_goals first
    | exact (other rfl (List.cons.inj ‹_›).1).elim
    | rfl

theorem readValue_string (text : String) (fuel : Nat) (rest : List Char)
    (enough : (spellString text).length ≤ fuel + 1) :
    readValue (fuel + 1) (spellString text ++ rest) = some (.string text, rest) := by
  have length := length_spellString text
  have string := readString_append text rest (fuel + 1) (by omega)
  simp [readValue, spellString, skipBlanks, isBlank, string]

/-- A value is read from the front of a text that goes on with something else. -/
def Reads (value : Json) : Prop :=
  ∀ fuel rest, (spell value).length ≤ fuel → Stops rest →
    readValue fuel (spell value ++ rest) = some (value, rest)

theorem readElements_append {element : Json} {others : List Json}
    (each : ∀ value ∈ element :: others, Reads value)
    (fuel : Nat) (rest : List Char)
    (enough : (spell element).length + (spellElements others).length ≤ fuel) :
    readElements fuel (spell element ++ (spellElements others ++ rest)) =
      some (element :: others, rest) := by
  -- Each element takes one step, and no element is written without a character.
  induction others generalizing element fuel with
  | nil =>
      simp only [spellElements, List.length_cons, List.length_nil] at enough
      obtain ⟨fuel, rfl⟩ := Nat.exists_eq_add_one_of_ne_zero (show fuel ≠ 0 by omega)
      have first := each element (by simp) fuel (']' :: rest) (by omega)
        (by rintro _ ⟨⟩; exact ⟨rfl, by decide, by decide, by decide⟩)
      simp [readElements, spellElements, first, skipBlanks, isBlank]
  | cons next others ih =>
      simp only [spellElements, List.length_cons, List.length_append] at enough
      obtain ⟨fuel, rfl⟩ := Nat.exists_eq_add_one_of_ne_zero (show fuel ≠ 0 by omega)
      have first := each element (by simp) fuel
        (',' :: (spell next ++ (spellElements others ++ rest))) (by omega)
        (by rintro _ ⟨⟩; exact ⟨rfl, by decide, by decide, by decide⟩)
      have later := ih (fun value member => each value (List.mem_cons_of_mem _ member)) fuel
        (by omega)
      simp [readElements, spellElements, first, later, skipBlanks, isBlank]

theorem insertMember_fresh {key : String} {members : List (String × Json)}
    (fresh : key ∉ members.map Prod.fst) (value : Json) :
    insertMember key value members = members ++ [(key, value)] := by
  have kept : members.filter (fun member => member.1 ≠ key) = members := by
    refine List.filter_eq_self.mpr fun member listed => ?_
    simp only [ne_eq, decide_not, Bool.not_eq_true', decide_eq_false_iff_not]
    rintro rfl
    exact fresh (List.mem_map_of_mem listed)
  rw [insertMember, kept]

theorem readMembers_member (key : String) {value : Json} {fuel : Nat} {after : List Char}
    (enough : (spellString key).length ≤ fuel + 1)
    (reads : readValue fuel (spell value ++ after) = some (value, after))
    {read : List (String × Json)} (fresh : key ∉ read.map Prod.fst) :
    readMembers (fuel + 1) (spellString key ++ ':' :: (spell value ++ after)) read =
      match skipBlanks after with
      | ',' :: rest => readMembers fuel rest (read ++ [(key, value)])
      | '\x7d' :: rest => some (read ++ [(key, value)], rest)
      | _ => none := by
  have length := length_spellString key
  have string := readString_append key (':' :: (spell value ++ after)) (fuel + 1) (by omega)
  have quote := skipBlanks_cons '"' rfl
  have colon := skipBlanks_cons ':' rfl
  simp only [spellString, List.cons_append, List.append_assoc, List.nil_append, readMembers, quote,
    string, Option.bind_eq_bind, Option.bind_some, colon, reads, insertMember_fresh fresh]
  rfl

theorem readMembers_append {key : String} {value : Json} {others : List (String × Json)}
    (each : ∀ member ∈ (key, value) :: others, Reads member.2)
    (fuel : Nat) (rest : List Char) (read : List (String × Json))
    (distinct : ((read ++ (key, value) :: others).map Prod.fst).Nodup)
    (enough : (spellString key).length + (spell value).length + (spellMembers others).length ≤
      fuel) :
    readMembers fuel (spellString key ++ ':' :: (spell value ++ (spellMembers others ++ rest)))
      read = some (read ++ (key, value) :: others, rest) := by
  have fresh {key : String} {value : Json} {read others : List (String × Json)}
      (distinct : ((read ++ (key, value) :: others).map Prod.fst).Nodup) :
      key ∉ read.map Prod.fst := by
    rw [List.map_append, List.nodup_append] at distinct
    intro member
    exact distinct.2.2 key member key (by simp) rfl
  induction others generalizing key value fuel read with
  | nil =>
      simp only [spellMembers, List.length_cons, List.length_nil] at enough
      obtain ⟨fuel, rfl⟩ := Nat.exists_eq_add_one_of_ne_zero (show fuel ≠ 0 by omega)
      have first : readValue fuel (spell value ++ '\x7d' :: rest) = some (value, '\x7d' :: rest) :=
        each (key, value) (by simp) fuel _ (by simp only; omega)
          (by rintro _ ⟨⟩; exact ⟨rfl, by decide, by decide, by decide⟩)
      have step := readMembers_member key (by omega) first (fresh distinct)
      have brace := skipBlanks_cons '\x7d' rfl
      simpa [spellMembers, brace] using step
  | cons next others ih =>
      obtain ⟨name, content⟩ := next
      simp only [spellMembers, List.length_cons, List.length_append] at enough
      obtain ⟨fuel, rfl⟩ := Nat.exists_eq_add_one_of_ne_zero (show fuel ≠ 0 by omega)
      have first := each (key, value) (by simp) fuel (',' :: (spellString name ++
        ':' :: (spell content ++ (spellMembers others ++ rest)))) (by simp only; omega)
        (by rintro _ ⟨⟩; exact ⟨rfl, by decide, by decide, by decide⟩)
      have step := readMembers_member key (by omega) first (fresh distinct)
      have later := ih (fun member listed => each member (List.mem_cons_of_mem _ listed)) fuel
        (read ++ [(key, value)]) (by simpa using distinct) (by omega)
      have comma := skipBlanks_cons ',' rfl
      simp only [spellMembers, List.cons_append, List.append_assoc, step, comma]
      simpa using later

/-- The character that a value begins with neither is a blank nor ends an array. -/
def Opens (chars : List Char) : Prop :=
  ∃ char rest, chars = char :: rest ∧ isBlank char = false ∧ char ≠ ']'

theorem opens_cons {char : Char} (visible : isBlank char = false) (other : char ≠ ']')
    (rest : List Char) : Opens (char :: rest) :=
  ⟨char, rest, rfl, visible, other⟩

theorem opens_nat (number : Nat) (rest : List Char) : Opens (spellNat number ++ rest) := by
  obtain ⟨digit, others, spelled, isDigit⟩ := spellNat_cons number
  rw [spelled]
  refine opens_cons (isBlank_digit isDigit) ?_ _
  rintro rfl
  cases isDigit

theorem spell_opens (value : Json) (rest : List Char) : Opens (spell value ++ rest) := by
  cases value with
  | null => exact opens_cons rfl (by decide) _
  | bool value => cases value <;> exact opens_cons rfl (by decide) _
  | integer value =>
      cases value with
      | ofNat value => exact opens_nat value rest
      | negSucc value => exact opens_cons rfl (by decide) _
  | real negative magnitude =>
      cases negative with
      | false =>
          rw [spell, List.append_assoc]
          exact opens_nat magnitude.digits _
      | true => exact opens_cons rfl (by decide) _
  | string value => exact opens_cons rfl (by decide) _
  | array elements => cases elements <;> exact opens_cons rfl (by decide) _
  | object members =>
      cases members with
      | nil => exact opens_cons rfl (by decide) _
      | cons member others => exact opens_cons rfl (by decide) _

theorem readValue_nat (number fuel : Nat) (rest : List Char) :
    readValue (fuel + 1) (spellNat number ++ rest) =
      readMagnitude false (spellNat number ++ rest) := by
  obtain ⟨digit, others, spelled, isDigit⟩ := spellNat_cons number
  rw [spelled, List.cons_append, readValue_digit isDigit]

theorem readValue_minus (fuel : Nat) (rest : List Char) :
    readValue (fuel + 1) ('-' :: rest) = readMagnitude true rest := rfl

theorem reads_of_succ {value : Json}
    (reads : ∀ fuel rest, (spell value).length ≤ fuel + 1 → Stops rest →
      readValue (fuel + 1) (spell value ++ rest) = some (value, rest)) : Reads value := by
  intro fuel rest enough stops
  cases fuel with
  | zero =>
      -- No value is written as the empty text.
      obtain ⟨char, others, spelled, -⟩ := spell_opens value []
      rw [List.append_nil] at spelled
      simp [spelled] at enough
  | succ fuel => exact reads fuel rest enough stops

theorem integer_reads (value : Int) : Reads (.integer value) := by
  refine reads_of_succ fun fuel rest enough stops => ?_
  cases value with
  | ofNat value =>
      simp only [spell, spellInt]
      rw [readValue_nat, readMagnitude_nat false value stops]
      rfl
  | negSucc value =>
      simp only [spell, spellInt, List.cons_append]
      rw [readValue_minus, readMagnitude_nat true (value + 1) stops]
      rfl

theorem real_reads (negative : Bool) (magnitude : Decimal) : Reads (.real negative magnitude) := by
  refine reads_of_succ fun fuel rest enough stops => ?_
  have real := readMagnitude_real negative magnitude fun char member => (stops char member).1
  cases negative with
  | false =>
      simp only [spell, List.append_assoc, List.cons_append]
      rw [readValue_nat, real]
  | true =>
      simp only [spell, List.append_assoc, List.cons_append]
      rw [readValue_minus, real]

theorem array_reads {elements : List Json} (each : ∀ element ∈ elements, Reads element) :
    Reads (.array elements) := by
  refine reads_of_succ fun fuel rest enough stops => ?_
  cases elements with
  | nil => rfl
  | cons element others =>
      simp only [spell, List.length_cons, List.length_append] at enough
      have read := readElements_append each fuel rest (by omega)
      obtain ⟨char, chars, begins, visible, other⟩ :=
        spell_opens element (spellElements others ++ rest)
      rw [begins] at read
      have bracket := skipBlanks_cons '[' rfl
      simp only [spell, List.cons_append, List.append_assoc, begins]
      simp [readValue, bracket, skipBlanks_cons char visible, other, read]

theorem object_reads {members : List (String × Json)} (distinct : (members.map Prod.fst).Nodup)
    (each : ∀ member ∈ members, Reads member.2) : Reads (.object members) := by
  refine reads_of_succ fun fuel rest enough stops => ?_
  cases members with
  | nil => rfl
  | cons member others =>
      simp only [spell, List.length_cons, List.length_append] at enough
      have read := readMembers_append each fuel rest [] distinct (by omega)
      have brace := skipBlanks_cons '\x7b' rfl
      have quote := skipBlanks_cons '"' rfl
      simp only [spellString, List.cons_append, List.append_assoc, List.nil_append] at read
      simp [readValue, spell, spellString, brace, quote, read]

theorem Proper.reads {value : Json} (proper : value.Proper) : Reads value := by
  induction proper with
  | null => exact reads_of_succ fun fuel rest enough stops => rfl
  | bool value =>
      refine reads_of_succ fun fuel rest enough stops => ?_
      cases value <;> rfl
  | integer value => exact integer_reads value
  | real negative magnitude => exact real_reads negative magnitude
  | string value =>
      exact reads_of_succ fun fuel rest enough stops => readValue_string value fuel rest enough
  | array each ih => exact array_reads ih
  | object distinct each ih => exact object_reads distinct ih

/-- A text that was written for a value is read as this value. -/
theorem Proper.ofText?_text {value : Json} (proper : value.Proper) :
    ofText? value.text = some value := by
  have read := proper.reads ((spell value).length + 2) [] (by omega) (by rintro _ ⟨⟩)
  rw [List.append_nil] at read
  simp [ofText?, proper.text_toList, read, skipBlanks]

end EmuScript.Json
