import Hotelia.Broker.Stream
import Hotelia.Foundation.Decimals
import Hotelia.Foundation.Readers
import Hotelia.Shared.Json
import Mathlib.Data.List.TakeWhile

/-!
# JSON texts, written and read

`JSON.stringify` and `JSON.parse`, between which payloads travel: into the columns of the
database, over the loopback to the console and from there to the pages. A number that is read
is kept as the text that is printed for it, which `canon` finds. A lone surrogate is not a
letter of a string here, and is not read.

## Main definitions

- `Json.print` — `JSON.stringify`
- `Json.parse` — `JSON.parse`
- `Json.Held` — the values that the language can hold

## Main results

- `parse_print`: what is read from a text is what it was written from.
- `Json.toText`: a written text is not empty, and on one line.
-/

namespace Hotelia

open Foundation Broker

/-! ## Writing -/

mutual

/-- `JSON.stringify(v)`. -/
def Json.print : Json → List Char
  | .null => "null".toList
  | .bool b => if b then "true".toList else "false".toList
  | .num text => text.toList
  | .str s => (jsonString s).toList
  | .arr items => '[' :: (printItems items ++ [']'])
  | .obj fields => '\x7b' :: (printFields fields ++ ['\x7d'])

/-- The items of an array. -/
def Json.printItems : List Json → List Char
  | [] => []
  | [v] => v.print
  | v :: w :: items => v.print ++ ',' :: printItems (w :: items)

/-- The fields of an object. -/
def Json.printFields : List (String × Json) → List Char
  | [] => []
  | [(key, v)] => (jsonString key).toList ++ ':' :: v.print
  | (key, v) :: f :: fields =>
    (jsonString key).toList ++ ':' :: v.print ++ ',' :: printFields (f :: fields)

end

/-- A field of an object. -/
def printField (field : String × Json) : List Char :=
  (jsonString field.1).toList ++ ':' :: field.2.print

theorem printItems_eq (items : List Json) :
    Json.printItems items = List.intercalate [','] (items.map Json.print) := by
  induction items with
  | nil => simp [Json.printItems]
  | cons v items ih =>
    cases items with
    | nil => simp [Json.printItems]
    | cons w items =>
      rw [Json.printItems, ih]
      simp [List.intercalate]

theorem printFields_eq (fields : List (String × Json)) :
    Json.printFields fields = List.intercalate [','] (fields.map printField) := by
  induction fields with
  | nil => simp [Json.printFields]
  | cons f fields ih =>
    obtain ⟨key, v⟩ := f
    cases fields with
    | nil => simp [Json.printFields, printField]
    | cons g fields =>
      rw [Json.printFields, ih]
      simp [List.intercalate, printField]

/-! ## Reading -/

/-- The white space between the parts of a text. -/
def isBlank (c : Char) : Bool := c = ' ' || c = '\t' || c = '\n' || c = '\r'

def skipBlanks (text : List Char) : List Char := text.dropWhile isBlank

/-- The value of a hexadecimal digit. -/
def hexValue (c : Char) : Option ℕ :=
  if '0' ≤ c ∧ c ≤ '9' then some (c.toNat - 48)
  else if 'a' ≤ c ∧ c ≤ 'f' then some (c.toNat - 87)
  else if 'A' ≤ c ∧ c ≤ 'F' then some (c.toNat - 55)
  else none

/-- Four hexadecimal digits. -/
def readHex : Reader Char ℕ
  | a :: b :: c :: d :: rest => do
    let a ← hexValue a
    let b ← hexValue b
    let c ← hexValue c
    let d ← hexValue d
    some (((a * 16 + b) * 16 + c) * 16 + d, rest)
  | _ => none

/-- The letter of `\u` and four digits, or of a pair of surrogates. -/
def readUnicode : Reader Char Char := readHex.next fun high rest =>
  if 0xd800 ≤ high ∧ high < 0xdc00 then
    match rest with
    | '\\' :: 'u' :: rest =>
      (readHex rest).bind fun low =>
        if 0xdc00 ≤ low.1 ∧ low.1 < 0xe000 then
          some (Char.ofNat (0x10000 + (high - 0xd800) * 0x400 + (low.1 - 0xdc00)), low.2)
        else none
    | _ => none
  else if 0xdc00 ≤ high ∧ high < 0xe000 then none
  else some (Char.ofNat high, rest)

/-- What stands behind a backslash. -/
def readEscape : Reader Char Char
  | [] => none
  | c :: rest =>
    match c.toNat with
    | 34 => some ('"', rest)
    | 92 => some ('\\', rest)
    | 47 => some ('/', rest)
    | 98 => some (Char.ofNat 8, rest)
    | 102 => some (Char.ofNat 12, rest)
    | 110 => some ('\n', rest)
    | 114 => some ('\r', rest)
    | 116 => some ('\t', rest)
    | 117 => readUnicode rest
    | _ => none

/-- One letter of a string. -/
def readLetter : Reader Char Char
  | [] => none
  | c :: rest =>
    if c = '\\' then readEscape rest else if c.toNat < 32 then none else some (c, rest)

/-- A string, behind its first quote. -/
def readString : Reader Char String := fun text =>
  (readLetter.upTo '"' (text.length + 1)).map String.ofList text

/-- A digit. -/
def isDigit (c : Char) : Bool := '0' ≤ c && c ≤ '9'

def readSign : Reader Char (List Char) := Reader.letter.ifStarts (· = '-')

def readWhole : Reader Char (List Char) := fun text =>
  if text.head? = some '0' then Reader.letter text else Reader.someRun isDigit text

def readFraction : Reader Char (List Char) :=
  (Reader.letter.cat (Reader.someRun isDigit)).ifStarts (· = '.')

def readExponent : Reader Char (List Char) :=
  (Reader.letter.cat ((Reader.letter.ifStarts fun c => c = '+' || c = '-').cat
    (Reader.someRun isDigit))).ifStarts fun c => c = 'e' || c = 'E'

/-- The text of a number. -/
def readNumber : Reader Char (List Char) :=
  readSign.cat (readWhole.cat (readFraction.cat readExponent))

/-- The place of a key among the keys that are indices, which come first and in their order. -/
def arrayIndex (key : String) : Option ℕ :=
  if key.toList.all isDigit && key ≠ "" && (key = "0" || key.toList.head? ≠ some '0')
      && decimalValue key.toList < 4294967295 then
    some (decimalValue key.toList)
  else none

/-- The key `a` comes before the key `b` whenever the object has both, `b` being set later. -/
def precedes (a b : String) : Bool :=
  match arrayIndex a, arrayIndex b with
  | some i, some j => i < j
  | some _, none => true
  | none, some _ => false
  | none, none => a ≠ b

/-- `object[key] = v`. -/
def setField (fields : List (String × Json)) (field : String × Json) : List (String × Json) :=
  if fields.any (·.1 = field.1) then
    fields.map fun f => if f.1 = field.1 then field else f
  else
    fields.takeWhile (precedes ·.1 field.1) ++ field :: fields.dropWhile (precedes ·.1 field.1)

/-- The word, behind its first letter, and its value. -/
def readWord (word : List Char) (v : Json) : Reader Char Json := fun text =>
  if word <+: text then some (v, text.drop word.length) else none

/-- A value with the blanks around it. -/
def element (value : Reader Char Json) : Reader Char Json := fun text =>
  (value (skipBlanks text)).map fun found => (found.1, skipBlanks found.2)

/-- The items of an array, behind its bracket. -/
def readItems (value : Reader Char Json) : Reader Char Json := fun text =>
  match skipBlanks text with
  | [] => none
  | c :: rest =>
    if c = ']' then some (.arr [], rest)
    else ((element value).items ',' ']' text.length).map Json.arr text

/-- `key: value`, with the blanks around both. -/
def readField (value : Reader Char Json) : Reader Char (String × Json) := fun text =>
  match skipBlanks text with
  | [] => none
  | c :: rest =>
    if c = '"' then
      (readString rest).bind fun key =>
        match skipBlanks key.2 with
        | [] => none
        | d :: rest =>
          if d = ':' then (element value rest).map fun found => ((key.1, found.1), found.2)
          else none
    else none

/-- The fields of an object, behind its brace. -/
def readFields (value : Reader Char Json) : Reader Char Json := fun text =>
  match skipBlanks text with
  | [] => none
  | c :: rest =>
    if c = '\x7d' then some (.obj [], rest)
    else ((readField value).items ',' '\x7d' text.length).map
      (fun fields => Json.obj (fields.foldl setField [])) text

section Parse

variable (canon : String → String)

/-- A value whose parts are read by `value`. -/
def readFrom (value : Reader Char Json) : Reader Char Json
  | [] => none
  | c :: rest =>
    if c = '"' then readString.map Json.str rest
    else if c = '[' then readItems value rest
    else if c = '\x7b' then readFields value rest
    else if c = 'n' then readWord "ull".toList .null rest
    else if c = 't' then readWord "rue".toList (.bool true) rest
    else if c = 'f' then readWord "alse".toList (.bool false) rest
    else readNumber.map (fun text => Json.num (canon (String.ofList text))) (c :: rest)

/-- A value with so many values around one another at most. -/
def readValue : ℕ → Reader Char Json
  | 0 => fun _ => none
  | n + 1 => readFrom canon (readValue n)

/-- `JSON.parse(text)`, which throws on a text that is not a value. -/
def Json.parse (text : List Char) : Option Json :=
  match element (readValue canon text.length) text with
  | some (v, []) => some v
  | _ => none

end Parse

/-! ## Values -/

/-- The digits before the point. -/
def WholeText (whole : List Char) : Prop :=
  whole = ['0'] ∨ (whole ≠ [] ∧ whole.head? ≠ some '0' ∧ ∀ c ∈ whole, isDigit c)

/-- The point and the digits behind it. -/
def FractionText (fraction : List Char) : Prop :=
  fraction = [] ∨ ∃ digits, digits ≠ [] ∧ (∀ c ∈ digits, isDigit c) ∧ fraction = '.' :: digits

/-- The power of ten. -/
def ExponentText (exponent : List Char) : Prop :=
  exponent = [] ∨ ∃ mark power digits, (mark = 'e' ∨ mark = 'E') ∧
    (power = [] ∨ power = ['+'] ∨ power = ['-']) ∧ digits ≠ [] ∧ (∀ c ∈ digits, isDigit c) ∧
    exponent = mark :: (power ++ digits)

/-- The texts that numbers are printed as. -/
inductive NumberText : List Char → Prop
  | mk (sign whole fraction exponent : List Char) (hsign : sign = [] ∨ sign = ['-'])
      (hwhole : WholeText whole) (hfraction : FractionText fraction)
      (hexponent : ExponentText exponent) : NumberText (sign ++ (whole ++ (fraction ++ exponent)))

theorem numberText_digit {c : Char} (h : isDigit c = true) (hzero : c ≠ '0') : NumberText [c] :=
  .mk [] [c] [] [] (.inl rfl)
    (.inr ⟨List.cons_ne_nil c [], fun heq => hzero (Option.some.inj heq),
      List.forall_mem_singleton.mpr h⟩) (.inl rfl) (.inl rfl)

/-- The values that the language can hold: the texts of numbers are those that numbers are
printed as, and an object has its keys once each and in their order. -/
inductive Json.Held (canon : String → String) : Json → Prop
  | null : Held canon .null
  | bool (b : Bool) : Held canon (.bool b)
  | num (text : String) (h : NumberText text.toList) (hcanon : canon text = text) :
      Held canon (.num text)
  | str (s : String) : Held canon (.str s)
  | arr (items : List Json) (h : ∀ v ∈ items, Held canon v) : Held canon (.arr items)
  | obj (fields : List (String × Json)) (h : ∀ f ∈ fields, Held canon f.2)
      (hkeys : fields.Pairwise fun f g => precedes f.1 g.1 = true) : Held canon (.obj fields)

/-- An object is held by its keys and its values. -/
theorem Json.Held.ofKeys {canon : String → String} {fields : List (String × Json)}
    (hkeys : (fields.map (·.1)).Pairwise fun a b => precedes a b = true)
    (h : ∀ v ∈ fields.map (·.2), v.Held canon) : (Json.obj fields).Held canon :=
  .obj fields (fun _ hf => h _ (List.mem_map_of_mem hf)) (List.pairwise_map.mp hkeys)

/-! ## What is written is read -/

section Strings

theorem hexValue_hexDigit (d : ℕ) (h : d < 16) : hexValue (hexDigit d) = some d := by
  revert d
  decide

/-- A letter that is written as its code. -/
theorem reads_code (c : Char) (h : c.toNat < 32) :
    Reads readLetter ("\\u00".toList ++ [hexDigit (c.toNat / 16), hexDigit (c.toNat % 16)]) c
      fun _ => True := by
  intro rest _
  have hhigh := hexValue_hexDigit (c.toNat / 16) (by omega)
  have hlow := hexValue_hexDigit (c.toNat % 16) (by omega)
  have hhex : readHex ('0' :: '0' :: hexDigit (c.toNat / 16) :: hexDigit (c.toNat % 16) :: rest) =
      some (c.toNat, rest) := by
    have hzero : hexValue '0' = some 0 := rfl
    simp only [readHex, hzero, hhigh, hlow, Option.bind_eq_bind, Option.bind_some]
    congr 2
    omega
  have hsmall : ¬ (0xd800 ≤ c.toNat ∧ c.toNat < 0xdc00) := by omega
  have hsmall' : ¬ (0xdc00 ≤ c.toNat ∧ c.toNat < 0xe000) := by omega
  change readUnicode _ = _
  rw [readUnicode, Reader.next]
  change (readHex ('0' :: '0' :: hexDigit (c.toNat / 16) :: hexDigit (c.toNat % 16) :: rest)).bind
    _ = _
  rw [hhex, Option.bind_some, if_neg hsmall, if_neg hsmall', Char.ofNat_toNat]

theorem reads_escapeChar (c : Char) : Reads readLetter (escapeChar c) c fun _ => True := by
  have hcode : ∀ n, c.toNat = n → c = Char.ofNat n := fun n h => by rw [← h, Char.ofNat_toNat]
  rw [escapeChar]
  split
  · next h => rw [hcode _ h]; exact fun _ _ => rfl
  · next h => rw [hcode _ h]; exact fun _ _ => rfl
  · next h => rw [hcode _ h]; exact fun _ _ => rfl
  · next h => rw [hcode _ h]; exact fun _ _ => rfl
  · next h => rw [hcode _ h]; exact fun _ _ => rfl
  · next h => rw [hcode _ h]; exact fun _ _ => rfl
  · next h => rw [hcode _ h]; exact fun _ _ => rfl
  · next hquote hslash _ _ _ _ _ =>
    split
    · next hless => exact reads_code c hless
    · next hless =>
      intro rest _
      have hne : c ≠ '\\' := fun h => hslash (by rw [h]; rfl)
      rw [List.singleton_append, readLetter, if_neg hne, if_neg hless]

theorem escapeChar_head (c : Char) : (escapeChar c).head? ≠ some '"' ∧ escapeChar c ≠ [] := by
  rw [escapeChar]
  split
  · decide
  · decide
  · decide
  · decide
  · decide
  · decide
  · decide
  · next hquote _ _ _ _ _ _ =>
    split
    · simp
    · refine ⟨fun h => hquote ?_, by simp⟩
      obtain rfl : c = '"' := by simpa using h
      rfl

/-- A string behind its first quote. -/
theorem reads_string (s : String) :
    Reads readString (s.toList.flatMap escapeChar ++ ['"']) s fun _ => True := by
  intro rest hrest
  have hlength : s.toList.length ≤ (s.toList.flatMap escapeChar).length := by
    induction s.toList with
    | nil => simp
    | cons c letters ih =>
      have hpos := List.length_pos_iff.mpr (escapeChar_head c).2
      rw [List.flatMap_cons, List.length_append, List.length_cons]
      omega
  have hcount : (s.toList.map fun c => (escapeChar c, c)).length <
      (s.toList.flatMap escapeChar ++ ['"'] ++ rest).length + 1 := by
    simp only [List.length_map, List.length_append]
    omega
  have hclose : ∀ entry ∈ s.toList.map fun c => (escapeChar c, c),
      entry.1.head? ≠ some '"' ∧ entry.1 ≠ [] := by
    intro entry hentry
    obtain ⟨c, -, rfl⟩ := List.mem_map.mp hentry
    exact escapeChar_head c
  have hletters : ∀ entry ∈ s.toList.map fun c => (escapeChar c, c),
      Reads readLetter entry.1 entry.2 fun _ => True := by
    intro entry hentry
    obtain ⟨c, -, rfl⟩ := List.mem_map.mp hentry
    exact reads_escapeChar c
  have hread := ((reads_upTo hcount hclose hletters).map String.ofList) rest trivial
  simp only [List.map_map, Function.comp_def, List.map_id', String.ofList_toList] at hread
  rw [readString]
  rwa [List.flatMap_def]

theorem jsonString_toList (s : String) :
    (jsonString s).toList = '"' :: (s.toList.flatMap escapeChar ++ ['"']) := by
  simp [jsonString]

end Strings

section Numbers

/-- What follows a value: the end, a comma or a bracket. -/
def Ends (rest : List Char) : Prop := Starts (fun c => c = ',' || c = ']' || c = '\x7d') rest

theorem Ends.starts_not {p : Char → Bool} {rest : List Char} (h : Ends rest)
    (hp : p ',' = false ∧ p ']' = false ∧ p '\x7d' = false) : Starts (!p ·) rest := by
  refine h.imp fun c hc => ?_
  obtain rfl | rfl | rfl : c = ',' ∨ c = ']' ∨ c = '\x7d' := by simpa [or_assoc] using hc
  · simp [hp]
  · simp [hp]
  · simp [hp]

theorem starts_append {p : Char → Bool} {text rest : List Char} (hrest : Starts p rest)
    (h : ∀ c ∈ text.head?, p c = true) : Starts p (text ++ rest) := by
  cases text with
  | nil => exact hrest
  | cons c text => exact starts_cons.mpr (h c rfl)

theorem reads_sign {sign : List Char} (h : sign = [] ∨ sign = ['-']) :
    Reads readSign sign sign (Starts fun c => !(c = '-' : Bool)) := by
  rcases h with rfl | rfl
  · exact reads_ifStarts_nil _ _
  · exact (reads_ifStarts (by decide) (reads_letter '-')).imp fun _ _ => trivial

theorem reads_whole {whole : List Char} (h : WholeText whole) :
    Reads readWhole whole whole (Starts (!isDigit ·)) := by
  intro rest hrest
  rcases h with rfl | ⟨hne, hhead, hdigits⟩
  · rfl
  · have hzero : (whole ++ rest).head? ≠ some '0' := by
      rwa [List.head?_append_of_ne_nil _ hne]
    rw [readWhole, if_neg hzero]
    exact reads_someRun hne hdigits rest hrest

theorem reads_fraction {fraction : List Char} (h : FractionText fraction) :
    Reads readFraction fraction fraction (Starts fun c => !(isDigit c || c = '.')) := by
  rcases h with rfl | ⟨digits, hne, hdigits, rfl⟩
  · refine (reads_ifStarts_nil _ _).imp fun rest hrest => hrest.imp fun c hc => ?_
    simp only [Bool.not_or, Bool.and_eq_true] at hc
    exact hc.2
  · have hrun := (reads_someRun hne hdigits).imp
      fun rest (hrest : Starts (fun c => !(isDigit c || c = '.')) rest) => hrest.imp fun c hc => by
        simp only [Bool.not_or, Bool.and_eq_true] at hc
        exact hc.1
    exact reads_ifStarts (by decide) ((reads_letter '.').cat hrun fun _ _ => trivial)

theorem reads_exponent {exponent : List Char} (h : ExponentText exponent) :
    Reads readExponent exponent exponent Ends := by
  rcases h with rfl | ⟨mark, power, digits, hmark, hpower, hne, hdigits, rfl⟩
  · exact (reads_ifStarts_nil _ _).imp fun rest hrest => hrest.starts_not (by decide)
  · have hrun := (reads_someRun hne hdigits).imp fun rest (hrest : Ends rest) =>
      hrest.starts_not (by decide)
    have hpow : Reads (Reader.letter.ifStarts fun c => c = '+' || c = '-') power power
        (Starts fun c => !(c = '+' || c = '-')) := by
      rcases hpower with rfl | rfl | rfl
      · exact reads_ifStarts_nil _ _
      · exact (reads_ifStarts (by decide) (reads_letter '+')).imp fun _ _ => trivial
      · exact (reads_ifStarts (by decide) (reads_letter '-')).imp fun _ _ => trivial
    refine reads_ifStarts (by rcases hmark with rfl | rfl <;> decide) ?_
    refine (reads_letter mark).cat (hpow.cat hrun fun rest _ => ?_) fun _ _ => trivial
    -- the sign of the power is not mistaken for its first digit
    obtain ⟨d, digits, rfl⟩ := List.exists_cons_of_ne_nil hne
    refine starts_cons.mpr ?_
    have hd := hdigits d List.mem_cons_self
    have hplus : d ≠ '+' := by rintro rfl; exact absurd hd (by decide)
    have hminus : d ≠ '-' := by rintro rfl; exact absurd hd (by decide)
    simp [hplus, hminus]

/-- A power of ten, or what follows a value, is none of the letters that go on with digits. -/
theorem ExponentText.starts_not {exponent rest : List Char} (h : ExponentText exponent)
    (hrest : Ends rest) {p : Char → Bool} (hp : p ',' = false ∧ p ']' = false ∧ p '\x7d' = false)
    (he : p 'e' = false ∧ p 'E' = false) : Starts (!p ·) (exponent ++ rest) := by
  refine starts_append (hrest.starts_not hp) fun c hc => ?_
  rcases h with rfl | ⟨mark, power, digits, rfl | rfl, -, -, -, rfl⟩
  · exact nomatch hc
  · cases hc
    simp [he]
  · cases hc
    simp [he]

theorem WholeText.exists_digit {whole : List Char} (h : WholeText whole) :
    ∃ d digits, whole = d :: digits ∧ isDigit d = true := by
  rcases h with rfl | ⟨hne, -, hdigits⟩
  · exact ⟨'0', [], rfl, rfl⟩
  · obtain ⟨d, digits, rfl⟩ := List.exists_cons_of_ne_nil hne
    exact ⟨d, digits, rfl, hdigits d List.mem_cons_self⟩

theorem reads_number {text : List Char} (h : NumberText text) :
    Reads readNumber text text Ends := by
  obtain ⟨sign, whole, fraction, exponent, hsign, hwhole, hfraction, hexponent⟩ := h
  refine (reads_sign hsign).cat ((reads_whole hwhole).cat
    ((reads_fraction hfraction).cat (reads_exponent hexponent) ?_) ?_) ?_
  · exact fun rest hrest => hexponent.starts_not hrest (by decide) (by decide)
  · intro rest hrest
    rw [List.append_assoc]
    refine starts_append (hexponent.starts_not hrest (by decide) (by decide)) fun c hc => ?_
    rcases hfraction with rfl | ⟨digits, -, -, rfl⟩
    · exact nomatch hc
    · cases hc
      rfl
  · intro rest _
    obtain ⟨d, digits, rfl, hd⟩ := hwhole.exists_digit
    refine starts_cons.mpr ?_
    have hminus : d ≠ '-' := by rintro rfl; exact absurd hd (by decide)
    simp [hminus]

end Numbers

section Values

variable {canon : String → String}

theorem not_precedes_self (key : String) : precedes key key = false := by
  rw [precedes]
  cases arrayIndex key with
  | none => simp
  | some i => simp

/-- A key that comes after all others is put at the end. -/
theorem setField_of_precedes {fields : List (String × Json)} {field : String × Json}
    (h : ∀ f ∈ fields, precedes f.1 field.1 = true) : setField fields field = fields ++ [field] := by
  have hnew : ¬ fields.any (·.1 = field.1) = true := by
    rw [List.any_eq_true]
    rintro ⟨f, hf, hkey⟩
    have hself := h f hf
    rw [of_decide_eq_true hkey, not_precedes_self] at hself
    exact nomatch hself
  rw [setField, if_neg hnew, List.takeWhile_eq_self_iff.mpr h, List.dropWhile_eq_nil_iff.mpr h]

theorem foldl_setField (acc : List (String × Json)) {fields : List (String × Json)}
    (h : (acc ++ fields).Pairwise fun f g => precedes f.1 g.1 = true) :
    fields.foldl setField acc = acc ++ fields := by
  induction fields generalizing acc with
  | nil => rw [List.foldl_nil, List.append_nil]
  | cons f fields ih =>
    have hlast : ∀ g ∈ acc, precedes g.1 f.1 = true := fun g hg =>
      (List.pairwise_append.mp h).2.2 g hg f List.mem_cons_self
    rw [List.append_cons] at h
    rw [List.foldl_cons, setField_of_precedes hlast, ih _ h, List.append_assoc, List.singleton_append]

/-- The text of a value starts with neither a blank nor a closing bracket. -/
theorem print_head {v : Json} (h : v.Held canon) :
    ∃ c text, v.print = c :: text ∧ isBlank c = false ∧ c ≠ ']' := by
  cases h with
  | null => exact ⟨'n', _, rfl, by decide, by decide⟩
  | bool b =>
    cases b with
    | true => exact ⟨'t', _, rfl, by decide, by decide⟩
    | false => exact ⟨'f', _, rfl, by decide, by decide⟩
  | num text hnumber hcanon =>
    rw [Json.print]
    generalize text.toList = letters at hnumber
    obtain ⟨sign, whole, fraction, exponent, rfl | rfl, hwhole, -, -⟩ := hnumber
    · obtain ⟨d, digits, rfl, hd⟩ := hwhole.exists_digit
      refine ⟨d, _, rfl, ?_, by rintro rfl; exact absurd hd (by decide)⟩
      rw [isBlank]
      refine eq_false_of_ne_true fun hblank => ?_
      obtain rfl | rfl | rfl | rfl : d = ' ' ∨ d = '\t' ∨ d = '\n' ∨ d = '\r' := by
        simpa [or_assoc] using hblank
      · exact absurd hd (by decide)
      · exact absurd hd (by decide)
      · exact absurd hd (by decide)
      · exact absurd hd (by decide)
    · exact ⟨'-', _, rfl, by decide, by decide⟩
  | str s => exact ⟨'"', _, by rw [Json.print, jsonString_toList], by decide, by decide⟩
  | arr items h => exact ⟨'[', _, by rw [Json.print], by decide, by decide⟩
  | obj fields h hkeys => exact ⟨'\x7b', _, by rw [Json.print], by decide, by decide⟩

theorem skipBlanks_cons {c : Char} (h : isBlank c = false) (rest : List Char) :
    skipBlanks (c :: rest) = c :: rest := List.dropWhile_cons_of_neg (by simp [h])

theorem Ends.skipBlanks_eq {rest : List Char} (h : Ends rest) : skipBlanks rest = rest :=
  Starts.dropWhile_eq (h.starts_not (by decide))

theorem reads_element {value : Reader Char Json} {c : Char} {text : List Char} {v : Json}
    (hc : isBlank c = false) (h : Reads value (c :: text) v Ends) :
    Reads (element value) (c :: text) v Ends := by
  intro rest hrest
  rw [element, List.cons_append, skipBlanks_cons hc, ← List.cons_append, h rest hrest,
    Option.map_some, hrest.skipBlanks_eq]

/-- Items of an array or fields of an object: a separator or the end follows each of them. -/
theorem reads_separated {β : Type} {item : Reader Char β} {close : Char}
    (hclose : close = ']' ∨ close = '\x7d') {entries : List (List Char × β)} (hne : entries ≠ [])
    {n : ℕ} (hn : entries.length ≤ n) (h : ∀ e ∈ entries, Reads item e.1 e.2 Ends) :
    Reads (item.items ',' close n) (List.intercalate [','] (entries.map (·.1)) ++ [close])
      (entries.map (·.2)) fun _ => True := by
  refine reads_items (by rcases hclose with rfl | rfl <;> decide) hne hn fun e he => ?_
  refine (h e he).imp fun rest hrest => hrest.imp fun c hc => ?_
  rcases hclose with rfl | rfl
  · obtain rfl | rfl : c = ',' ∨ c = ']' := by simpa using hc
    · rfl
    · rfl
  · obtain rfl | rfl : c = ',' ∨ c = '\x7d' := by simpa using hc
    · rfl
    · rfl

theorem reads_field {value : Reader Char Json} {field : String × Json}
    (h : Reads (element value) field.2.print field.2 Ends) :
    Reads (readField value) (printField field) field Ends := by
  intro rest hrest
  have hkey : readString (field.1.toList.flatMap escapeChar ++ '"' :: ':' ::
      (field.2.print ++ rest)) = some (field.1, ':' :: (field.2.print ++ rest)) := by
    have hread := reads_string field.1 (':' :: (field.2.print ++ rest)) trivial
    rwa [List.append_assoc, List.singleton_append] at hread
  have htext : printField field ++ rest = '"' :: (field.1.toList.flatMap escapeChar ++ '"' ::
      ':' :: (field.2.print ++ rest)) := by
    simp [printField, jsonString_toList]
  rw [htext, readField, skipBlanks_cons (by decide)]
  simp only [if_true, hkey, Option.bind_some]
  rw [skipBlanks_cons (by decide)]
  simp only [if_true, h rest hrest, Option.map_some]

theorem length_le_intercalate (sep : Char) {texts : List (List Char)} {text : List Char}
    (h : text ∈ texts) : text.length ≤ (List.intercalate [sep] texts).length := by
  induction texts with
  | nil => exact nomatch h
  | cons first texts ih =>
    cases texts with
    | nil =>
      rw [List.mem_singleton.mp h]
      simp [List.intercalate]
    | cons second texts =>
      have hlength : (List.intercalate [sep] (first :: second :: texts)).length =
          first.length + (1 + (List.intercalate [sep] (second :: texts)).length) := by
        simp [List.intercalate]
        omega
      rcases List.mem_cons.mp h with rfl | hrest
      · omega
      · have := ih hrest
        omega

theorem length_le_length_intercalate (sep : Char) (texts : List (List Char)) :
    texts.length ≤ (List.intercalate [sep] texts).length + 1 := by
  induction texts with
  | nil => simp
  | cons first texts ih =>
    cases texts with
    | nil => simp
    | cons second texts =>
      have hlength : (List.intercalate [sep] (first :: second :: texts)).length =
          first.length + (1 + (List.intercalate [sep] (second :: texts)).length) := by
        simp [List.intercalate]
        omega
      rw [List.length_cons, hlength]
      omega

theorem reads_items_of_values {value : Reader Char Json} {items : List Json}
    (hheld : ∀ v ∈ items, v.Held canon) (h : ∀ v ∈ items, Reads value v.print v Ends) :
    Reads (readItems value) (Json.printItems items ++ [']']) (.arr items) fun _ => True := by
  intro rest _
  rw [printItems_eq]
  cases items with
  | nil => rfl
  | cons v items =>
    obtain ⟨c, text, hprint, hblank, hclose⟩ := print_head (hheld v List.mem_cons_self)
    obtain ⟨tail, htext⟩ : ∃ tail, List.intercalate [','] ((v :: items).map Json.print) ++ [']'] ++
        rest = c :: tail := by
      cases items with
      | nil => exact ⟨_, by simp [List.intercalate, hprint]; rfl⟩
      | cons w items => exact ⟨_, by simp [List.intercalate, hprint]; rfl⟩
    have hcount : ((v :: items).map fun w => (w.print, w)).length ≤
        (List.intercalate [','] ((v :: items).map Json.print) ++ [']'] ++ rest).length := by
      have hle := length_le_length_intercalate ',' ((v :: items).map Json.print)
      simp only [List.length_map, List.length_append, List.length_singleton] at hle ⊢
      omega
    have hentries : ∀ e ∈ (v :: items).map fun w => (w.print, w),
        Reads (element value) e.1 e.2 Ends := by
      intro e he
      obtain ⟨w, hw, rfl⟩ := List.mem_map.mp he
      obtain ⟨d, letters, hw', hd, -⟩ := print_head (hheld w hw)
      rw [hw']
      exact reads_element hd (hw' ▸ h w hw)
    have hread := (reads_separated (.inl rfl) (by simp) hcount hentries).map Json.arr rest trivial
    simp only [List.map_map, Function.comp_def, List.map_id'] at hread
    rw [readItems]
    rw [htext] at hread ⊢
    rw [skipBlanks_cons hblank]
    simp only [if_neg hclose]
    exact hread

theorem reads_fields_of_values {value : Reader Char Json} {fields : List (String × Json)}
    (hheld : ∀ f ∈ fields, f.2.Held canon)
    (hkeys : fields.Pairwise fun f g => precedes f.1 g.1 = true)
    (h : ∀ f ∈ fields, Reads value f.2.print f.2 Ends) :
    Reads (readFields value) (Json.printFields fields ++ ['\x7d']) (.obj fields) fun _ => True := by
  intro rest _
  rw [printFields_eq]
  cases fields with
  | nil => rfl
  | cons f fields =>
    obtain ⟨tail, htext⟩ : ∃ tail, List.intercalate [','] ((f :: fields).map printField) ++
        ['\x7d'] ++ rest = '"' :: tail := by
      cases fields with
      | nil => exact ⟨_, by simp [List.intercalate, printField, jsonString_toList]; rfl⟩
      | cons g fields => exact ⟨_, by simp [List.intercalate, printField, jsonString_toList]; rfl⟩
    have hcount : ((f :: fields).map fun g => (printField g, g)).length ≤
        (List.intercalate [','] ((f :: fields).map printField) ++ ['\x7d'] ++ rest).length := by
      have hle := length_le_length_intercalate ',' ((f :: fields).map printField)
      simp only [List.length_map, List.length_append, List.length_singleton] at hle ⊢
      omega
    have hentries : ∀ e ∈ (f :: fields).map fun g => (printField g, g),
        Reads (readField value) e.1 e.2 Ends := by
      intro e he
      obtain ⟨g, hg, rfl⟩ := List.mem_map.mp he
      obtain ⟨d, letters, hg', hd, -⟩ := print_head (hheld g hg)
      refine reads_field ?_
      rw [hg']
      exact reads_element hd (hg' ▸ h g hg)
    have hread := (reads_separated (.inr rfl) (by simp) hcount hentries).map
      (fun fields => Json.obj (fields.foldl setField [])) rest trivial
    have hset : (f :: fields).foldl setField [] = f :: fields := foldl_setField [] hkeys
    simp only [List.map_map, Function.comp_def, List.map_id', hset] at hread
    rw [readFields]
    rw [htext] at hread ⊢
    rw [skipBlanks_cons (by decide)]
    simp only [if_neg (by decide : '"' ≠ '\x7d')]
    exact hread

/-- A value is read back where its text stands, by a reader that is as deep as the text is
long. -/
theorem reads_value {v : Json} (h : v.Held canon) {n : ℕ} (hn : v.print.length ≤ n) :
    Reads (readValue canon n) v.print v Ends := by
  induction n generalizing v with
  | zero =>
    obtain ⟨c, text, hprint, -⟩ := print_head h
    rw [hprint] at hn
    exact absurd hn (by simp)
  | succ n ih =>
    intro rest hrest
    cases h with
    | null => rfl
    | bool b =>
      cases b with
      | true => rfl
      | false => rfl
    | num text hnumber hcanon =>
      have hread := (reads_number hnumber).map (fun text => Json.num (canon (String.ofList text)))
        rest hrest
      rw [String.ofList_toList, hcanon] at hread
      obtain ⟨c, letters, htext, hfirst⟩ : ∃ c letters, text.toList ++ rest = c :: letters ∧
          (c = '-' ∨ isDigit c = true) := by
        generalize text.toList = number at hnumber
        obtain ⟨sign, whole, fraction, exponent, rfl | rfl, hwhole, -, -⟩ := hnumber
        · obtain ⟨d, digits, rfl, hd⟩ := hwhole.exists_digit
          exact ⟨d, _, rfl, .inr hd⟩
        · exact ⟨'-', _, rfl, .inl rfl⟩
      have hother : c ≠ '"' ∧ c ≠ '[' ∧ c ≠ '\x7b' ∧ c ≠ 'n' ∧ c ≠ 't' ∧ c ≠ 'f' := by
        refine ⟨?_, ?_, ?_, ?_, ?_, ?_⟩
        all_goals rintro rfl; exact absurd hfirst (by decide)
      obtain ⟨h₁, h₂, h₃, h₄, h₅, h₆⟩ := hother
      rw [Json.print, readValue]
      rw [htext] at hread ⊢
      rw [readFrom, if_neg h₁, if_neg h₂, if_neg h₃, if_neg h₄, if_neg h₅, if_neg h₆, hread]
    | str s =>
      rw [Json.print, jsonString_toList, List.cons_append, readValue, readFrom, if_pos rfl]
      exact ((reads_string s).map Json.str) rest trivial
    | arr items h =>
      have hitems : ∀ v ∈ items, Reads (readValue canon n) v.print v Ends := by
        intro v hv
        refine ih (h v hv) ?_
        have hle := length_le_intercalate ',' (List.mem_map_of_mem (f := Json.print) hv)
        rw [Json.print, printItems_eq, List.length_cons, List.length_append] at hn
        omega
      rw [Json.print, List.cons_append, readValue, readFrom, if_neg (by decide), if_pos rfl]
      exact reads_items_of_values h hitems rest trivial
    | obj fields h hkeys =>
      have hfields : ∀ f ∈ fields, Reads (readValue canon n) f.2.print f.2 Ends := by
        intro f hf
        refine ih (h f hf) ?_
        have hle := length_le_intercalate ',' (List.mem_map_of_mem (f := printField) hf)
        rw [Json.print, printFields_eq, List.length_cons, List.length_append] at hn
        rw [printField, List.length_append, List.length_cons] at hle
        omega
      rw [Json.print, List.cons_append, readValue, readFrom, if_neg (by decide),
        if_neg (by decide), if_pos rfl]
      exact reads_fields_of_values h hkeys hfields rest trivial

/-- `JSON.parse(JSON.stringify(v))` is `v`. -/
theorem parse_print {v : Json} (h : v.Held canon) : Json.parse canon v.print = some v := by
  obtain ⟨c, text, hprint, hblank, -⟩ := print_head h
  have hvalue : Reads (readValue canon v.print.length) (c :: text) v Ends :=
    hprint ▸ reads_value h le_rfl
  have hread := reads_element hblank hvalue [] (fun _ hc => nomatch hc)
  rw [List.append_nil, ← hprint] at hread
  rw [Json.parse, hread]

/-! ## Written texts -/

theorem not_mem_intercalate {c sep : Char} (hne : c ≠ sep) {texts : List (List Char)}
    (h : ∀ text ∈ texts, c ∉ text) : c ∉ List.intercalate [sep] texts := by
  induction texts with
  | nil => simp
  | cons first texts ih =>
    have hrest := ih fun t ht => h t (List.mem_cons_of_mem first ht)
    cases texts with
    | nil => simpa [List.intercalate] using h first List.mem_cons_self
    | cons second texts =>
      have htext : List.intercalate [sep] (first :: second :: texts) =
          first ++ sep :: List.intercalate [sep] (second :: texts) := by
        simp [List.intercalate]
      rw [htext, List.mem_append, List.mem_cons, not_or, not_or]
      exact ⟨h first List.mem_cons_self, hne, hrest⟩

theorem NumberText.oneLine {text : List Char} (h : NumberText text) : '\n' ∉ text := by
  have hdigits : ∀ digits : List Char, (∀ c ∈ digits, isDigit c = true) → '\n' ∉ digits :=
    fun digits h hmem => absurd (h _ hmem) (by decide)
  obtain ⟨sign, whole, fraction, exponent, hsign, hwhole, hfraction, hexponent⟩ := h
  simp only [List.mem_append, not_or]
  refine ⟨?_, ?_, ?_, ?_⟩
  · rcases hsign with rfl | rfl
    · decide
    · decide
  · rcases hwhole with rfl | ⟨-, -, hwhole⟩
    · decide
    · exact hdigits whole hwhole
  · rcases hfraction with rfl | ⟨digits, -, hfraction, rfl⟩
    · decide
    · exact List.not_mem_cons_of_ne_of_not_mem (by decide) (hdigits digits hfraction)
  · rcases hexponent with rfl | ⟨mark, power, digits, hmark, hpower, -, hexponent, rfl⟩
    · decide
    · rw [List.mem_cons, List.mem_append, not_or, not_or]
      refine ⟨?_, ?_, hdigits digits hexponent⟩
      · rcases hmark with rfl | rfl
        · decide
        · decide
      · rcases hpower with rfl | rfl | rfl
        · decide
        · decide
        · decide

theorem oneLine_print {v : Json} (h : v.Held canon) : '\n' ∉ v.print := by
  induction h with
  | null => decide
  | bool b =>
    cases b with
    | true => decide
    | false => decide
  | num text hnumber => exact hnumber.oneLine
  | str s => exact not_mem_jsonString s
  | arr items h ih =>
    have hitems : '\n' ∉ Json.printItems items := by
      rw [printItems_eq]
      refine not_mem_intercalate (by decide) fun text htext => ?_
      obtain ⟨v, hv, rfl⟩ := List.mem_map.mp htext
      exact ih v hv
    rw [Json.print, List.mem_cons, List.mem_append, not_or, not_or]
    exact ⟨by decide, hitems, by decide⟩
  | obj fields h hkeys ih =>
    have hfields : '\n' ∉ Json.printFields fields := by
      rw [printFields_eq]
      refine not_mem_intercalate (by decide) fun text htext => ?_
      obtain ⟨f, hf, rfl⟩ := List.mem_map.mp htext
      rw [printField, List.mem_append, List.mem_cons, not_or, not_or]
      exact ⟨not_mem_jsonString f.1, by decide, ih f hf⟩
    rw [Json.print, List.mem_cons, List.mem_append, not_or, not_or]
    exact ⟨by decide, hfields, by decide⟩

/-- `JSON.stringify(v)` of a value that the language can hold. -/
def Json.toText (v : Json) (h : v.Held canon) : JsonText where
  text := String.ofList v.print
  nonempty hempty := by
    obtain ⟨c, text, hprint, -⟩ := print_head h
    rw [hprint] at hempty
    exact absurd (congrArg String.toList hempty) (by simp)
  oneLine := by
    rw [String.toList_ofList]
    exact oneLine_print h

theorem parse_toText {v : Json} (h : v.Held canon) :
    Json.parse canon (v.toText h).text.toList = some v := by
  rw [Json.toText, String.toList_ofList, parse_print h]

end Values

end Hotelia
