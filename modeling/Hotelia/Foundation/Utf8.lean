import Mathlib.Data.List.Basic

/-!
# Decoding UTF-8 piece by piece

The decoder that reads one byte after the other and keeps what is left of a character between
two pieces of its input. A byte that cannot follow is an error, for which the replacement
character stands, and is read again as a first byte.

## Main definitions

- `Utf8.Decoder`, `Utf8.step` — what is kept between bytes, and what a byte gives
- `Utf8.Stream`, `Utf8.decode` — a decoder of a text in pieces, which leaves out a byte order mark

## Main results

- `Utf8.feed_encode`: what was encoded is read back, and nothing is kept.
- `Utf8.join_decodeAll`: so it is in any pieces.
-/

namespace Foundation.Utf8

/-- The bits of a character that were read, how many bytes it still needs, and between which
bounds the next one is. -/
structure Decoder where
  point : ℕ
  owed : ℕ
  lower : ℕ
  upper : ℕ

/-- Between two characters. -/
def idle : Decoder := ⟨0, 0, 0x80, 0xBF⟩

def replacement : Char := Char.ofNat 0xFFFD

/-- The first byte of a character. -/
def lead (b : ℕ) : List Char × Decoder :=
  if b ≤ 0x7F then ([Char.ofNat b], idle)
  else if 0xC2 ≤ b ∧ b ≤ 0xDF then ([], ⟨b % 32, 1, 0x80, 0xBF⟩)
  else if 0xE0 ≤ b ∧ b ≤ 0xEF then
    ([], ⟨b % 16, 2, if b = 0xE0 then 0xA0 else 0x80, if b = 0xED then 0x9F else 0xBF⟩)
  else if 0xF0 ≤ b ∧ b ≤ 0xF4 then
    ([], ⟨b % 8, 3, if b = 0xF0 then 0x90 else 0x80, if b = 0xF4 then 0x8F else 0xBF⟩)
  else ([replacement], idle)

/-- The characters that a byte gives, and what is kept. -/
def step (d : Decoder) (b : ℕ) : List Char × Decoder :=
  if d.owed = 0 then lead b
  else if b < d.lower ∨ d.upper < b then
    let (chars, d) := lead b
    (replacement :: chars, d)
  else if d.owed = 1 then ([Char.ofNat (d.point * 64 + b % 64)], idle)
  else ([], ⟨d.point * 64 + b % 64, d.owed - 1, 0x80, 0xBF⟩)

def feed (d : Decoder) : List UInt8 → List Char × Decoder
  | [] => ([], d)
  | b :: bytes =>
    let (chars, d) := step d b.toNat
    let (rest, d) := feed d bytes
    (chars ++ rest, d)

theorem feed_append (d : Decoder) (first second : List UInt8) :
    feed d (first ++ second) =
      ((feed d first).1 ++ (feed (feed d first).2 second).1, (feed (feed d first).2 second).2) := by
  induction first generalizing d with
  | nil => rfl
  | cons b bytes ih => simp only [List.cons_append, feed, ih, List.append_assoc]

/-! ## One character -/

theorem toNat_ofNat {n : ℕ} (h : n < 256) : (UInt8.ofNat n).toNat = n := by
  rw [UInt8.toNat_ofNat', Nat.mod_eq_of_lt h]

theorem step_idle (b : ℕ) : step idle b = lead b := rfl

/-- The rest is fed to what a byte leaves. -/
theorem feed_cons {d d' : Decoder} {n : ℕ} {chars : List Char} (hn : n < 256)
    (h : step d n = (chars, d')) (bytes : List UInt8) :
    feed d (UInt8.ofNat n :: bytes) = (chars ++ (feed d' bytes).1, (feed d' bytes).2) := by
  rw [feed, toNat_ofNat hn, h]

theorem step_tail {d : Decoder} {b : ℕ} (howed : d.owed ≠ 0) (hlower : d.lower ≤ b)
    (hupper : b ≤ d.upper) : step d b =
      if d.owed = 1 then ([Char.ofNat (d.point * 64 + b % 64)], idle)
      else ([], ⟨d.point * 64 + b % 64, d.owed - 1, 0x80, 0xBF⟩) := by
  rw [step, if_neg howed, if_neg (by omega)]

theorem feed_two {v : ℕ} (h : 0x7F < v) (h' : v ≤ 0x7FF) :
    feed idle [UInt8.ofNat (v / 64 % 32 + 192), UInt8.ofNat (v % 64 + 128)] =
      ([Char.ofNat v], idle) := by
  have hlead : lead (v / 64 % 32 + 192) = ([], ⟨v / 64, 1, 0x80, 0xBF⟩) := by
    rw [lead, if_neg (by omega), if_pos (by omega)]
    congr 2
    omega
  have htail : step ⟨v / 64, 1, 0x80, 0xBF⟩ (v % 64 + 128) = ([Char.ofNat v], idle) := by
    rw [step_tail (by simp) (by simp) (by dsimp only; omega), if_pos rfl]
    congr 3
    dsimp only
    omega
  rw [feed_cons (by omega) ((step_idle _).trans hlead), feed_cons (by omega) htail]
  rfl

theorem feed_three {v : ℕ} (h : 0x7FF < v) (h' : v ≤ 0xFFFF) (hscalar : v < 0xD800 ∨ 0xDFFF < v) :
    feed idle [UInt8.ofNat (v / 4096 % 16 + 224), UInt8.ofNat (v / 64 % 64 + 128),
      UInt8.ofNat (v % 64 + 128)] = ([Char.ofNat v], idle) := by
  have hlead : lead (v / 4096 % 16 + 224) = ([], ⟨v / 4096, 2,
      if v / 4096 = 0 then 0xA0 else 0x80, if v / 4096 = 13 then 0x9F else 0xBF⟩) := by
    rw [lead, if_neg (by omega), if_neg (by omega), if_pos (by omega)]
    congr 2
    · omega
    · split_ifs <;> omega
    · split_ifs <;> omega
  have hmiddle : step ⟨v / 4096, 2, if v / 4096 = 0 then 0xA0 else 0x80,
      if v / 4096 = 13 then 0x9F else 0xBF⟩ (v / 64 % 64 + 128) =
        ([], ⟨v / 64, 1, 0x80, 0xBF⟩) := by
    rw [step_tail (by simp) (by dsimp only; split_ifs <;> omega)
      (by dsimp only; split_ifs <;> omega), if_neg (by simp)]
    congr 2
    dsimp only
    omega
  have htail : step ⟨v / 64, 1, 0x80, 0xBF⟩ (v % 64 + 128) = ([Char.ofNat v], idle) := by
    rw [step_tail (by simp) (by simp) (by dsimp only; omega), if_pos rfl]
    congr 3
    dsimp only
    omega
  rw [feed_cons (by omega) ((step_idle _).trans hlead), feed_cons (by omega) hmiddle,
    feed_cons (by omega) htail]
  rfl

theorem feed_four {v : ℕ} (h : 0xFFFF < v) (h' : v < 0x110000) :
    feed idle [UInt8.ofNat (v / 262144 % 8 + 240), UInt8.ofNat (v / 4096 % 64 + 128),
      UInt8.ofNat (v / 64 % 64 + 128), UInt8.ofNat (v % 64 + 128)] = ([Char.ofNat v], idle) := by
  have hlead : lead (v / 262144 % 8 + 240) = ([], ⟨v / 262144, 3,
      if v / 262144 = 0 then 0x90 else 0x80, if v / 262144 = 4 then 0x8F else 0xBF⟩) := by
    rw [lead, if_neg (by omega), if_neg (by omega), if_neg (by omega), if_pos (by omega)]
    congr 2
    · omega
    · split_ifs <;> omega
    · split_ifs <;> omega
  have hsecond : step ⟨v / 262144, 3, if v / 262144 = 0 then 0x90 else 0x80,
      if v / 262144 = 4 then 0x8F else 0xBF⟩ (v / 4096 % 64 + 128) =
        ([], ⟨v / 4096, 2, 0x80, 0xBF⟩) := by
    rw [step_tail (by simp) (by dsimp only; split_ifs <;> omega)
      (by dsimp only; split_ifs <;> omega), if_neg (by simp)]
    congr 2
    dsimp only
    omega
  have hthird : step ⟨v / 4096, 2, 0x80, 0xBF⟩ (v / 64 % 64 + 128) =
      ([], ⟨v / 64, 1, 0x80, 0xBF⟩) := by
    rw [step_tail (by simp) (by simp) (by dsimp only; omega), if_neg (by simp)]
    congr 2
    dsimp only
    omega
  have htail : step ⟨v / 64, 1, 0x80, 0xBF⟩ (v % 64 + 128) = ([Char.ofNat v], idle) := by
    rw [step_tail (by simp) (by simp) (by dsimp only; omega), if_pos rfl]
    congr 3
    dsimp only
    omega
  rw [feed_cons (by omega) ((step_idle _).trans hlead), feed_cons (by omega) hsecond,
    feed_cons (by omega) hthird, feed_cons (by omega) htail]
  rfl

theorem feed_char (c : Char) : feed idle (String.utf8EncodeChar c) = ([c], idle) := by
  have hscalar : c.toNat < 0xD800 ∨ 0xDFFF < c.toNat ∧ c.toNat < 0x110000 := c.valid
  obtain ⟨v, hv⟩ : ∃ v, c.toNat = v := ⟨_, rfl⟩
  have hback : Char.ofNat v = c := by rw [← hv, Char.ofNat_toNat]
  have hval : c.val.toNat = v := hv
  rw [String.utf8EncodeChar, hval, ← hback]
  rw [hv] at hscalar
  split_ifs with hone htwo hthree
  · have hlead : lead v = ([Char.ofNat v], idle) := by rw [lead, if_pos hone]
    rw [feed_cons (by omega) ((step_idle v).trans hlead)]
    rfl
  · exact feed_two (by omega) htwo
  · exact feed_three (by omega) hthree (by omega)
  · exact feed_four (by omega) (by omega)

/-! ## A text in pieces -/

/-- The bytes of a text. -/
def encode (text : List Char) : List UInt8 := text.flatMap String.utf8EncodeChar

theorem feed_encode (text : List Char) : feed idle (encode text) = (text, idle) := by
  induction text with
  | nil => rfl
  | cons c text ih =>
    change feed idle (String.utf8EncodeChar c ++ encode text) = _
    rw [feed_append, feed_char, ih]
    rfl

/-- A decoder between two pieces, and whether a character has come. -/
structure Stream where
  decoder : Decoder
  bomSeen : Bool

def fresh : Stream := ⟨idle, false⟩

def byteOrderMark : Char := Char.ofNat 0xFEFF

/-- A byte order mark is left out if it comes first. -/
def dropMark : List Char → List Char
  | [] => []
  | c :: text => if c = byteOrderMark then text else c :: text

/-- The text of a piece. -/
def decode (s : Stream) (bytes : List UInt8) : List Char × Stream :=
  let (chars, decoder) := feed s.decoder bytes
  if s.bomSeen then (chars, ⟨decoder, true⟩) else (dropMark chars, ⟨decoder, !chars.isEmpty⟩)

/-- The texts of all pieces. -/
def decodeAll (s : Stream) : List (List UInt8) → List String
  | [] => []
  | bytes :: pieces =>
    let (chars, s) := decode s bytes
    String.ofList chars :: decodeAll s pieces

theorem join_decodeAll_seen (d : Decoder) (pieces : List (List UInt8)) :
    (String.join (decodeAll ⟨d, true⟩ pieces)).toList = (feed d pieces.flatten).1 := by
  induction pieces generalizing d with
  | nil => rfl
  | cons bytes pieces ih =>
    rw [decodeAll, decode, String.toList_join, List.flatMap_cons, ← String.toList_join]
    dsimp only
    rw [if_pos rfl, ih, List.flatten_cons, feed_append, String.toList_ofList]

/-- How the pieces are cut does not matter. -/
theorem join_decodeAll_unseen (d : Decoder) (pieces : List (List UInt8)) :
    (String.join (decodeAll ⟨d, false⟩ pieces)).toList = dropMark (feed d pieces.flatten).1 := by
  induction pieces generalizing d with
  | nil => rfl
  | cons bytes pieces ih =>
    rw [decodeAll, decode, String.toList_join, List.flatMap_cons, ← String.toList_join,
      List.flatten_cons, feed_append]
    dsimp only
    rw [if_neg Bool.false_ne_true, String.toList_ofList]
    cases hchars : (feed d bytes).1 with
    | nil => exact ih _
    | cons c chars =>
      change dropMark (c :: chars) ++ (String.join (decodeAll ⟨_, true⟩ pieces)).toList = _
      rw [join_decodeAll_seen, List.cons_append, dropMark, dropMark]
      split_ifs <;> rfl

/-- A text that does not start with a byte order mark is read from its bytes, in whatever pieces
they come. -/
theorem join_decodeAll {text : String} (hmark : text.toList.head? ≠ some byteOrderMark)
    {pieces : List (List UInt8)} (hcut : pieces.flatten = encode text.toList) :
    String.join (decodeAll fresh pieces) = text := by
  rw [← String.toList_inj, fresh, join_decodeAll_unseen, hcut, feed_encode]
  cases htext : text.toList with
  | nil => rfl
  | cons c rest =>
    refine if_neg fun hc => hmark ?_
    rw [htext, hc]
    rfl

end Foundation.Utf8
