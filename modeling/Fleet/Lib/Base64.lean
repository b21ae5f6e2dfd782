/- Bytes of a text and their base64 text, with the lenient decoder. -/
import Mathlib.Data.List.Basic
import Mathlib.Tactic.Common

namespace Fleet.Lib

abbrev Bytes := List UInt8

def utf8 (text : String) : Bytes := text.toByteArray.data.toList

theorem utf8_inj {s t : String} : utf8 s = utf8 t ↔ s = t := by
  unfold utf8
  constructor
  · intro same
    apply String.toByteArray_inj.mp
    apply ByteArray.ext
    exact Array.toList_inj.mp same
  · intro same
    rw [same]

theorem utf8_ascii {text : List Char} (ascii : ∀ c ∈ text, c.toNat < 128) :
    utf8 (String.ofList text) = text.map fun c => UInt8.ofNat c.toNat := by
  induction text with
  | nil => rfl
  | cons c text ih =>
      have first : String.utf8EncodeChar c = [UInt8.ofNat c.toNat] := by
        have small := ascii c List.mem_cons_self
        have low : ¬ 127 < c.toNat := by omega
        simp [String.utf8EncodeChar, low]
      rw [List.map_cons, ← ih fun d member => ascii d (List.mem_cons_of_mem _ member)]
      unfold utf8
      rw [String.toByteArray_ofList, List.utf8Encode_cons, List.utf8Encode_singleton, first,
        ByteArray.data_append, Array.toList_append, List.data_toByteArray, String.toByteArray_ofList]
      rfl

namespace Base64

/-! ## The alphabet -/

def digit (n : Nat) : Char :=
  if n < 26 then Char.ofNat (65 + n)
  else if n < 52 then Char.ofNat (71 + n)
  else if n < 62 then Char.ofNat (n - 4)
  else if n = 62 then '+'
  else '/'

def value? (c : Char) : Option Nat :=
  if 'A' ≤ c ∧ c ≤ 'Z' then some (c.toNat - 65)
  else if 'a' ≤ c ∧ c ≤ 'z' then some (c.toNat - 71)
  else if '0' ≤ c ∧ c ≤ '9' then some (c.toNat + 4)
  else if c = '+' then some 62
  else if c = '/' then some 63
  else none

theorem value?_digit {n : Nat} (small : n < 64) : value? (digit n) = some n := by
  have all : ∀ n : Fin 64, value? (digit n) = some n.val := by decide
  exact all ⟨n, small⟩

theorem digit_plain {n : Nat} (small : n < 64) : digit n ≠ '=' ∧ (digit n).toNat < 128 := by
  have all : ∀ n : Fin 64, digit n ≠ '=' ∧ (digit n).toNat < 128 := by decide
  exact all ⟨n, small⟩

/-! ## Encoding -/

/-- Three bytes as four digits; a shorter last group is padded. -/
def encode : Bytes → List Char
  | a :: b :: c :: rest =>
      digit (a.toNat / 4) :: digit (a.toNat % 4 * 16 + b.toNat / 16) ::
        digit (b.toNat % 16 * 4 + c.toNat / 64) :: digit (c.toNat % 64) :: encode rest
  | [a, b] =>
      [digit (a.toNat / 4), digit (a.toNat % 4 * 16 + b.toNat / 16), digit (b.toNat % 16 * 4), '=']
  | [a] => [digit (a.toNat / 4), digit (a.toNat % 4 * 16), '=', '=']
  | [] => []

/-- `base64.b64encode(data).decode()`. -/
def b64encode (data : Bytes) : String := String.ofList (encode data)

/-- A byte that leaves no `+` in an encoding, whatever stands around it. -/
def PlusFree (b : UInt8) : Prop := b.toNat < 128 ∧ b.toNat % 64 ≠ 62

/-- By induction on the groups of three bytes. -/
theorem mem_encode {data : Bytes} {d : Char} (member : d ∈ encode data) :
    d = '=' ∨ ∃ n, n < 64 ∧ d = digit n ∧ ((∀ b ∈ data, PlusFree b) → n ≠ 62) := by
  induction data using encode.induct with
  | case1 a b c rest ih =>
      have := a.toNat_lt
      have := b.toNat_lt
      have := c.toNat_lt
      simp only [encode, List.mem_cons] at member
      rcases member with rfl | rfl | rfl | rfl | later
      · refine .inr ⟨_, by omega, rfl, fun all => ?_⟩
        have := (all a (by simp)).1
        omega
      · refine .inr ⟨_, by omega, rfl, fun all => ?_⟩
        have := (all b (by simp)).1
        omega
      · refine .inr ⟨_, by omega, rfl, fun all => ?_⟩
        have := (all c (by simp)).1
        omega
      · exact .inr ⟨_, by omega, rfl, fun all => (all c (by simp)).2⟩
      · refine (ih later).imp_right ?_
        rintro ⟨n, small, same, free⟩
        exact ⟨n, small, same, fun all => free fun x inside => all x (by simp [inside])⟩
  | case2 a b =>
      have := a.toNat_lt
      have := b.toNat_lt
      simp only [encode, List.mem_cons, List.not_mem_nil, or_false] at member
      rcases member with rfl | rfl | rfl | rfl
      · refine .inr ⟨_, by omega, rfl, fun all => ?_⟩
        have := (all a (by simp)).1
        omega
      · refine .inr ⟨_, by omega, rfl, fun all => ?_⟩
        have := (all b (by simp)).1
        omega
      · exact .inr ⟨_, by omega, rfl, fun _ => by omega⟩
      · exact .inl rfl
  | case3 a =>
      have := a.toNat_lt
      simp only [encode, List.mem_cons, List.not_mem_nil, or_false] at member
      rcases member with rfl | rfl | rfl | rfl
      · refine .inr ⟨_, by omega, rfl, fun all => ?_⟩
        have := (all a (by simp)).1
        omega
      · exact .inr ⟨_, by omega, rfl, fun _ => by omega⟩
      · exact .inl rfl
      · exact .inl rfl
  | case4 => cases member

theorem encode_plain (data : Bytes) : ∀ c ∈ encode data, c.toNat < 128 := by
  intro c member
  rcases mem_encode member with rfl | ⟨n, small, rfl, _⟩
  · decide
  · exact (digit_plain small).2

theorem encode_unbroken (data : Bytes) : '\n' ∉ encode data := by
  intro member
  rcases mem_encode member with mark | ⟨n, small, same, -⟩
  · exact absurd mark (by decide)
  · have read := value?_digit small
    rw [← same] at read
    cases read

theorem encode_unmarked {data : Bytes} (free : ∀ b ∈ data, PlusFree b) :
    ∀ c ∈ encode data, c ∉ ['+', '%', '&'] := by
  intro c member
  rcases mem_encode member with rfl | ⟨n, small, rfl, other⟩
  · decide
  · have all : ∀ n : Fin 64, n.val ≠ 62 → digit n ∉ ['+', '%', '&'] := by decide
    exact all ⟨n, small⟩ (other free)

theorem encode_eq_nil {data : Bytes} : encode data = [] ↔ data = [] := by
  cases data using encode.induct <;> simp [encode]

/-! ## Decoding -/

/-- What `binascii.a2b_base64` has read of the current group of four digits, the
pads it met since, and the bytes so far. -/
structure Decoder where
  quad : Nat := 0
  left : Nat := 0
  pads : Nat := 0
  out : Bytes := []

namespace Decoder

def take (d : Decoder) (v : Nat) : Decoder :=
  match d.quad with
  | 0 => { quad := 1, left := v, out := d.out }
  | 1 => { quad := 2, left := v % 16, out := d.out ++ [UInt8.ofNat (d.left * 4 + v / 16)] }
  | 2 => { quad := 3, left := v % 4, out := d.out ++ [UInt8.ofNat (d.left * 16 + v / 4)] }
  | _ => { out := d.out ++ [UInt8.ofNat (d.left * 64 + v)] }

def finish (d : Decoder) : Except String Bytes :=
  if d.quad = 0 then .ok d.out
  else if d.quad = 1 then
    .error s!"Invalid base64-encoded string: number of data characters ({d.out.length / 3 * 4 + 1}) cannot be 1 more than a multiple of 4"
  else .error "Incorrect padding"

/-- Characters outside the alphabet are passed over, and so is a pad that cannot
end a group; the pad that does end one ends the text. -/
def scan : List Char → Decoder → Except String Bytes
  | [], d => d.finish
  | c :: rest, d =>
      if c = '=' then
        if 2 ≤ d.quad then
          if 4 ≤ d.quad + (d.pads + 1) then .ok d.out
          else scan rest { d with pads := d.pads + 1 }
        else scan rest d
      else
        match value? c with
        | none => scan rest d
        | some v => scan rest (d.take v)

theorem scan_digit {n : Nat} (small : n < 64) (rest : List Char) (d : Decoder) :
    scan (digit n :: rest) d = scan rest (d.take n) := by
  rw [scan, if_neg (digit_plain small).1, value?_digit small]

end Decoder

/-- `base64.b64decode(text)` of a `str`; the error is the text of the `ValueError`. -/
def b64decode (text : String) : Except String Bytes :=
  if text.toList.all (fun c => c.toNat < 128) then Decoder.scan text.toList {}
  else .error "string argument should contain only ASCII characters"

example : b64decode "Zm9v!Ym\nE=" = .ok (utf8 "fooba") := by decide

/-- Decoding reads a whole encoding, whatever it read before. -/
theorem scan_encode (data out : Bytes) :
    Decoder.scan (encode data) { out := out } = .ok (out ++ data) := by
  induction data using encode.induct generalizing out with
  | case1 a b c rest ih =>
      have := a.toNat_lt
      have := b.toNat_lt
      have := c.toNat_lt
      have first : a.toNat / 4 * 4 + (a.toNat % 4 * 16 + b.toNat / 16) / 16 = a.toNat := by omega
      have second : (a.toNat % 4 * 16 + b.toNat / 16) % 16 * 16 +
          (b.toNat % 16 * 4 + c.toNat / 64) / 4 = b.toNat := by omega
      have third : (b.toNat % 16 * 4 + c.toNat / 64) % 4 * 64 + c.toNat % 64 = c.toNat := by omega
      rw [encode, Decoder.scan_digit (by omega), Decoder.scan_digit (by omega),
        Decoder.scan_digit (by omega), Decoder.scan_digit (by omega)]
      simp only [Decoder.take, first, second, third, UInt8.ofNat_toNat]
      rw [ih]
      simp
  | case2 a b =>
      have := a.toNat_lt
      have := b.toNat_lt
      have first : a.toNat / 4 * 4 + (a.toNat % 4 * 16 + b.toNat / 16) / 16 = a.toNat := by omega
      have second : (a.toNat % 4 * 16 + b.toNat / 16) % 16 * 16 + b.toNat % 16 * 4 / 4 =
          b.toNat := by omega
      rw [encode, Decoder.scan_digit (by omega), Decoder.scan_digit (by omega),
        Decoder.scan_digit (by omega)]
      simp only [Decoder.take, first, second, UInt8.ofNat_toNat]
      simp [Decoder.scan]
  | case3 a =>
      have := a.toNat_lt
      have first : a.toNat / 4 * 4 + a.toNat % 4 * 16 / 16 = a.toNat := by omega
      rw [encode, Decoder.scan_digit (by omega), Decoder.scan_digit (by omega)]
      simp only [Decoder.take, first, UInt8.ofNat_toNat]
      simp [Decoder.scan]
  | case4 => simp [encode, Decoder.scan, Decoder.finish]

theorem b64decode_b64encode (data : Bytes) : b64decode (b64encode data) = .ok data := by
  have plain : (b64encode data).toList.all (fun c => c.toNat < 128) = true := by
    simpa [b64encode] using encode_plain data
  rw [b64decode, if_pos plain, b64encode, String.toList_ofList, scan_encode, List.nil_append]

theorem b64encode_eq_empty {data : Bytes} : b64encode data = "" ↔ data = [] := by
  rw [← encode_eq_nil, ← String.toList_eq_nil_iff, b64encode, String.toList_ofList]

end Base64
end Fleet.Lib
