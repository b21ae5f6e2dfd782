/- Lines of a byte stream, and their text when what is no UTF-8 is replaced. -/
import Fleet.Lib.Base64

namespace Fleet.Lib

/-! ## Lines -/

/-- Every line with its newline; what follows the last newline is a line of its own. -/
def splitLines : Bytes → List Bytes
  | [] => []
  | b :: rest =>
      if b = 10 then [b] :: splitLines rest
      else
        match splitLines rest with
        | [] => [[b]]
        | line :: lines => (b :: line) :: lines

def chomp (line : Bytes) : Bytes := if line.getLast? = some 10 then line.dropLast else line

/-! ## Decoding -/

/-- A sequence of which `need` more bytes are awaited; the next is from `low` to `high`. -/
structure Partial where
  need : Nat
  low : Nat
  high : Nat
  bits : Nat

def Partial.lead? (b : Nat) : Option Partial :=
  if 0xC2 ≤ b ∧ b ≤ 0xDF then some ⟨1, 0x80, 0xBF, b - 0xC0⟩
  else if b = 0xE0 then some ⟨2, 0xA0, 0xBF, 0⟩
  else if b = 0xED then some ⟨2, 0x80, 0x9F, 0xD⟩
  else if 0xE1 ≤ b ∧ b ≤ 0xEF then some ⟨2, 0x80, 0xBF, b - 0xE0⟩
  else if b = 0xF0 then some ⟨3, 0x90, 0xBF, 0⟩
  else if b = 0xF4 then some ⟨3, 0x80, 0x8F, 4⟩
  else if 0xF1 ≤ b ∧ b ≤ 0xF3 then some ⟨3, 0x80, 0xBF, b - 0xF0⟩
  else none

def replacement : Char := '\ufffd'

/-- The byte outside a sequence. -/
def decodeFirst (b : Nat) : List Char × Option Partial :=
  if b < 0x80 then ([Char.ofNat b], none)
  else
    match Partial.lead? b with
    | some p => ([], some p)
    | none => ([replacement], none)

/-- A byte that does not go on with the sequence ends it and is read anew. -/
def decodeByte (state : Option Partial) (b : Nat) : List Char × Option Partial :=
  match state with
  | none => decodeFirst b
  | some p =>
      if p.low ≤ b ∧ b ≤ p.high then
        if p.need = 1 then ([Char.ofNat (p.bits * 64 + (b - 0x80))], none)
        else ([], some ⟨p.need - 1, 0x80, 0xBF, p.bits * 64 + (b - 0x80)⟩)
      else (replacement :: (decodeFirst b).1, (decodeFirst b).2)

def decodeFrom (state : Option Partial) : Bytes → List Char
  | [] => if state.isSome then [replacement] else []
  | b :: rest => (decodeByte state b.toNat).1 ++ decodeFrom (decodeByte state b.toNat).2 rest

/-- `data.decode(errors="replace")`. -/
def decodeReplace (data : Bytes) : List Char := decodeFrom none data

/-! ### A text read back -/

section decode
variable {b : UInt8} {rest : Bytes} {n k low high bits : Nat}

theorem toNat_byte (byte : n < 256) : (UInt8.ofNat n).toNat = n :=
  (UInt8.toNat_ofNat' (n := n)).trans (Nat.mod_eq_of_lt byte)

theorem decodeFrom_ascii (small : n < 128) :
    decodeFrom none (UInt8.ofNat n :: rest) = Char.ofNat n :: decodeFrom none rest := by
  rw [decodeFrom, toNat_byte (by omega)]
  simp [decodeByte, decodeFirst, small]

theorem decodeFrom_lead {p : Partial} (byte : n < 256) (wide : 128 ≤ n)
    (lead : Partial.lead? n = some p) :
    decodeFrom none (UInt8.ofNat n :: rest) = decodeFrom (some p) rest := by
  rw [decodeFrom, toNat_byte byte]
  simp [decodeByte, decodeFirst, Nat.not_lt.mpr wide, lead]

theorem decodeFrom_next (small : n < 64) (above : low ≤ n + 128) (below : n + 128 ≤ high) :
    decodeFrom (some ⟨k + 2, low, high, bits⟩) (UInt8.ofNat (n + 128) :: rest) =
      decodeFrom (some ⟨k + 1, 0x80, 0xBF, bits * 64 + n⟩) rest := by
  rw [decodeFrom, toNat_byte (by omega)]
  simp [decodeByte, above, below]

theorem decodeFrom_last (small : n < 64) (above : low ≤ n + 128) (below : n + 128 ≤ high) :
    decodeFrom (some ⟨1, low, high, bits⟩) (UInt8.ofNat (n + 128) :: rest) =
      Char.ofNat (bits * 64 + n) :: decodeFrom none rest := by
  rw [decodeFrom, toNat_byte (by omega)]
  simp [decodeByte, above, below]

end decode

theorem lead?_three {v : Nat} (valid : v < 55296 ∨ 57343 < v) (wide : 2047 < v) (small : v ≤ 65535) :
    ∃ low high, Partial.lead? (v / 4096 % 16 + 224) = some ⟨2, low, high, v / 4096⟩ ∧
      low ≤ v / 64 % 64 + 128 ∧ v / 64 % 64 + 128 ≤ high := by
  have bits : v / 4096 % 16 + 224 - 0xE0 = v / 4096 := by omega
  unfold Partial.lead?
  split_ifs with two first surrogates three
  · omega
  · have zero : v / 4096 = 0 := by omega
    exact ⟨0xA0, 0xBF, by rw [zero], by omega, by omega⟩
  · have thirteen : v / 4096 = 0xD := by omega
    exact ⟨0x80, 0x9F, by rw [thirteen], by omega, by omega⟩
  · exact ⟨0x80, 0xBF, by rw [bits], by omega, by omega⟩
  all_goals omega

theorem lead?_four {v : Nat} (valid : v < 1114112) (wide : 65535 < v) :
    ∃ low high, Partial.lead? (v / 262144 % 8 + 240) = some ⟨3, low, high, v / 262144⟩ ∧
      low ≤ v / 4096 % 64 + 128 ∧ v / 4096 % 64 + 128 ≤ high := by
  have bits : v / 262144 % 8 + 240 - 0xF0 = v / 262144 := by omega
  unfold Partial.lead?
  split_ifs with two first surrogates three fourth last four
  · omega
  · omega
  · omega
  · omega
  · have zero : v / 262144 = 0 := by omega
    exact ⟨0x90, 0xBF, by rw [zero], by omega, by omega⟩
  · have top : v / 262144 = 4 := by omega
    exact ⟨0x80, 0x8F, by rw [top], by omega, by omega⟩
  · exact ⟨0x80, 0xBF, by rw [bits], by omega, by omega⟩
  · omega

theorem decodeFrom_encodeChar (c : Char) (rest : Bytes) :
    decodeFrom none (String.utf8EncodeChar c ++ rest) = c :: decodeFrom none rest := by
  have back : Char.ofNat c.val.toNat = c := Char.ofNat_toNat c
  have valid : c.val.toNat < 55296 ∨ 57343 < c.val.toNat ∧ c.val.toNat < 1114112 := c.valid
  rw [String.utf8EncodeChar]
  generalize c.val.toNat = v at back valid
  split_ifs with one two three
  · rw [List.singleton_append, decodeFrom_ascii (by omega), back]
  · have lead : Partial.lead? (v / 64 % 32 + 192) = some ⟨1, 0x80, 0xBF, v / 64⟩ := by
      have bits : v / 64 % 32 + 192 - 0xC0 = v / 64 := by omega
      rw [Partial.lead?, if_pos (by omega), bits]
    rw [List.cons_append, decodeFrom_lead (by omega) (by omega) lead, List.singleton_append,
      decodeFrom_last (by omega) (by omega) (by omega), Nat.div_add_mod', back]
  · obtain ⟨low, high, lead, above, below⟩ := lead?_three (by omega) (by omega) three
    have bits : (v / 4096 * 64 + v / 64 % 64) * 64 + v % 64 = v := by omega
    simp only [List.cons_append, List.nil_append]
    rw [decodeFrom_lead (by omega) (by omega) lead, decodeFrom_next (by omega) above below,
      decodeFrom_last (by omega) (by omega) (by omega), bits, back]
  · obtain ⟨low, high, lead, above, below⟩ := @lead?_four v (by omega) (by omega)
    have bits : ((v / 262144 * 64 + v / 4096 % 64) * 64 + v / 64 % 64) * 64 + v % 64 = v := by omega
    simp only [List.cons_append, List.nil_append]
    rw [decodeFrom_lead (by omega) (by omega) lead, decodeFrom_next (by omega) above below,
      decodeFrom_next (by omega) (by omega) (by omega),
      decodeFrom_last (by omega) (by omega) (by omega), bits, back]

/-- Nothing is lost where the bytes are those of a text. -/
theorem decodeReplace_utf8 (text : String) : decodeReplace (utf8 text) = text.toList := by
  have all : ∀ cs : List Char, decodeFrom none (utf8 (String.ofList cs)) = cs := by
    intro cs
    induction cs with
    | nil => rfl
    | cons c cs ih =>
        have split : utf8 (String.ofList (c :: cs)) = String.utf8EncodeChar c ++ utf8 (String.ofList cs) := by
          unfold utf8
          rw [String.toByteArray_ofList, List.utf8Encode_cons, List.utf8Encode_singleton,
            ByteArray.data_append, Array.toList_append, List.data_toByteArray, String.toByteArray_ofList]
        rw [split, decodeFrom_encodeChar, ih]
  rw [decodeReplace, ← all text.toList, String.ofList_toList]

/-! ## Text -/

/-- `c.isspace()`. -/
def isSpace (c : Char) : Bool :=
  (9 ≤ c.toNat && c.toNat ≤ 13) || (28 ≤ c.toNat && c.toNat ≤ 32) || c.toNat = 0x85 || c.toNat = 0xA0
    || c.toNat = 0x1680 || (0x2000 ≤ c.toNat && c.toNat ≤ 0x200A) || c.toNat = 0x2028
    || c.toNat = 0x2029 || c.toNat = 0x202F || c.toNat = 0x205F || c.toNat = 0x3000

def strip (text : List Char) : List Char :=
  ((text.dropWhile isSpace).reverse.dropWhile isSpace).reverse

end Fleet.Lib
