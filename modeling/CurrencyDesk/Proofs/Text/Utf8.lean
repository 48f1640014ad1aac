import CurrencyDesk.Text.Utf8
import Mathlib.Tactic.IntervalCases
/-!
# Bytes that are a text

The decoder reads bytes one at a time and does not look back, so what it makes of the bytes of
a character does not depend on what follows them, and every run of it that meets no malformed
sequence has read the bytes of some characters, each in its one encoding. So the bytes that
are decoded are exactly the encodings of texts (`decode?_eq_some_iff`). A byte of ASCII is the
encoding of its character wherever it stands (`utf8EncodeChar_of_mem`).

Key definitions: `Begins`.
Key theorems: `symbolsFrom_encodeChar`, `begins_of_allSome`, `decode?_eq_some_iff`,
`utf8EncodeChar_of_mem`.
-/

namespace CurrencyDesk.Text.Utf8

theorem symbolsFrom_cons (place : Place) (b : UInt8) (bytes : List UInt8) :
    symbolsFrom place (b :: bytes) =
      (step place b.toNat).1 ++ symbolsFrom (step place b.toNat).2 bytes := by
  cases place <;> rfl

@[simp] theorem encode_nil : encode [] = [] := rfl

@[simp] theorem encode_cons (c : Char) (s : List Char) :
    encode (c :: s) = String.utf8EncodeChar c ++ encode s := rfl

@[simp] theorem encode_append (s t : List Char) : encode (s ++ t) = encode s ++ encode t :=
  List.flatMap_append

/-! ### Continuation bytes -/

section Inside

variable {missing bits low high n : Nat} {b : UInt8} {bytes : List UInt8}

theorem symbolsFrom_inside_last (hb : b.toNat = 0x80 + n) (hlow : low ≤ 0x80 + n)
    (hhigh : 0x80 + n ≤ high) :
    symbolsFrom (.inside 1 bits low high) (b :: bytes) =
      some (Char.ofNat (bits * 64 + n)) :: symbolsFrom .between bytes := by
  rw [symbolsFrom_cons, hb]
  simp [step, hlow, hhigh]

/-- Any other continuation byte adds six bits. -/
theorem symbolsFrom_inside_more (hb : b.toNat = 0x80 + n) (hlow : low ≤ 0x80 + n)
    (hhigh : 0x80 + n ≤ high) (hmissing : 1 < missing) :
    symbolsFrom (.inside missing bits low high) (b :: bytes) =
      symbolsFrom (.inside (missing - 1) (bits * 64 + n) 0x80 0xBF) bytes := by
  rw [symbolsFrom_cons, hb]
  simp [step, hlow, hhigh, Nat.not_le.mpr hmissing]

end Inside

/-! ### Leads -/

theorem lead_one {b : Nat} (h : b < 0x80) : lead b = ([some (Char.ofNat b)], .between) :=
  if_pos h

theorem lead_two {n : Nat} (hlow : 2 ≤ n) (hhigh : n < 32) :
    lead (0xC0 + n) = ([], .inside 1 n 0x80 0xBF) := by
  interval_cases n <;> rfl

theorem lead_three {n : Nat} (h : n < 16) :
    lead (0xE0 + n) =
      ([], .inside 2 n (if n = 0 then 0xA0 else 0x80) (if n = 13 then 0x9F else 0xBF)) := by
  interval_cases n <;> rfl

theorem lead_four {n : Nat} (h : n < 5) :
    lead (0xF0 + n) =
      ([], .inside 3 n (if n = 0 then 0x90 else 0x80) (if n = 4 then 0x8F else 0xBF)) := by
  interval_cases n <;> rfl

theorem lead_none {b : Nat} (h : 0x80 ≤ b ∧ b < 0xC2 ∨ 0xF5 ≤ b) : lead b = ([none], .between) := by
  unfold lead
  split_ifs <;> first | rfl | omega

/-! ### Characters are read back -/

theorem code_valid (c : Char) :
    c.val.toNat < 0xD800 ∨ 0xDFFF < c.val.toNat ∧ c.val.toNat < 0x110000 :=
  c.valid

/-- The bytes of a character are read as this character, whatever follows them. -/
theorem symbolsFrom_encodeChar (c : Char) (bytes : List UInt8) :
    symbolsFrom .between (String.utf8EncodeChar c ++ bytes) =
      some c :: symbolsFrom .between bytes := by
  have hvalid := code_valid c
  have hc : Char.ofNat c.val.toNat = c := Char.ofNat_toNat c
  generalize hv : c.val.toNat = v at hvalid hc
  have hbyte {n m : Nat} (h : n < 256) (hm : n = m) : (UInt8.ofNat n).toNat = m :=
    hm ▸ UInt8.toNat_ofNat_of_lt' h
  rw [String.utf8EncodeChar]
  simp only [hv]
  split_ifs with h1 h2 h3
  · rw [List.singleton_append, symbolsFrom_cons, hbyte (by omega) rfl, step,
      lead_one (by omega), hc]
    rfl
  · have hlead : (UInt8.ofNat (v / 64 % 32 + 192)).toNat = 0xC0 + v / 64 :=
      hbyte (by omega) (by omega)
    have hlast : (UInt8.ofNat (v % 64 + 128)).toNat = 0x80 + v % 64 := hbyte (by omega) (by omega)
    have hcode : v / 64 * 64 + v % 64 = v := by omega
    rw [List.cons_append, symbolsFrom_cons, hlead, step, lead_two (by omega) (by omega),
      List.nil_append, List.singleton_append,
      symbolsFrom_inside_last hlast (by omega) (by omega), hcode, hc]
  · have hlead : (UInt8.ofNat (v / 4096 % 16 + 224)).toNat = 0xE0 + v / 4096 :=
      hbyte (by omega) (by omega)
    have hmiddle : (UInt8.ofNat (v / 64 % 64 + 128)).toNat = 0x80 + v / 64 % 64 :=
      hbyte (by omega) (by omega)
    have hlast : (UInt8.ofNat (v % 64 + 128)).toNat = 0x80 + v % 64 := hbyte (by omega) (by omega)
    have hcode : (v / 4096 * 64 + v / 64 % 64) * 64 + v % 64 = v := by omega
    rw [List.cons_append, symbolsFrom_cons, hlead, step, lead_three (by omega),
      List.nil_append, List.cons_append, List.singleton_append,
      symbolsFrom_inside_more hmiddle (by split_ifs <;> omega) (by split_ifs <;> omega) (by omega),
      symbolsFrom_inside_last hlast (by omega) (by omega), hcode, hc]
  · have hlead : (UInt8.ofNat (v / 262144 % 8 + 240)).toNat = 0xF0 + v / 262144 :=
      hbyte (by omega) (by omega)
    have hsecond : (UInt8.ofNat (v / 4096 % 64 + 128)).toNat = 0x80 + v / 4096 % 64 :=
      hbyte (by omega) (by omega)
    have hthird : (UInt8.ofNat (v / 64 % 64 + 128)).toNat = 0x80 + v / 64 % 64 :=
      hbyte (by omega) (by omega)
    have hlast : (UInt8.ofNat (v % 64 + 128)).toNat = 0x80 + v % 64 := hbyte (by omega) (by omega)
    have hcode : ((v / 262144 * 64 + v / 4096 % 64) * 64 + v / 64 % 64) * 64 + v % 64 = v := by
      omega
    rw [List.cons_append, symbolsFrom_cons, hlead, step, lead_four (by omega),
      List.nil_append, List.cons_append, List.cons_append, List.singleton_append,
      symbolsFrom_inside_more hsecond (by split_ifs <;> omega) (by split_ifs <;> omega) (by omega),
      symbolsFrom_inside_more hthird (by omega) (by omega) (by omega),
      symbolsFrom_inside_last hlast (by omega) (by omega), hcode, hc]

theorem symbols_encode (s : List Char) : symbols (encode s) = s.map some := by
  induction s with
  | nil => rfl
  | cons c s ih =>
    rw [encode_cons, symbols, symbolsFrom_encodeChar, List.map_cons]
    exact congrArg (some c :: ·) ih

theorem allSome_map_some (s : List Char) : allSome (s.map some) = some s := by
  induction s with
  | nil => rfl
  | cons c s ih => rw [List.map_cons, allSome, ih, Option.map_some]

theorem decode?_encode (s : List Char) : decode? (encode s) = some s := by
  rw [decode?, symbols_encode, allSome_map_some]

/-! ### What is read is the bytes of characters -/

theorem utf8EncodeChar_ofNat {v : Nat} (h : v.isValidChar) :
    String.utf8EncodeChar (Char.ofNat v) =
      if v ≤ 0x7F then [UInt8.ofNat v]
      else if v ≤ 0x7FF then [UInt8.ofNat (v / 64 % 32 + 192), UInt8.ofNat (v % 64 + 128)]
      else if v ≤ 0xFFFF then
        [UInt8.ofNat (v / 4096 % 16 + 224), UInt8.ofNat (v / 64 % 64 + 128),
          UInt8.ofNat (v % 64 + 128)]
      else
        [UInt8.ofNat (v / 262144 % 8 + 240), UInt8.ofNat (v / 4096 % 64 + 128),
          UInt8.ofNat (v / 64 % 64 + 128), UInt8.ofNat (v % 64 + 128)] := by
  have hv : (Char.ofNat v).val.toNat = v := by
    rw [Char.ofNat, dif_pos h]
    rfl
  rw [String.utf8EncodeChar]
  simp only [hv]

/-- Inside a character a byte in range comes next, or there is no text. -/
theorem exists_of_allSome_inside {missing bits low high : Nat} {bytes : List UInt8}
    {s : List Char} (hlow : 0x80 ≤ low) (hhigh : high ≤ 0xBF)
    (h : allSome (symbolsFrom (.inside missing bits low high) bytes) = some s) :
    ∃ n rest, bytes = UInt8.ofNat (n + 128) :: rest ∧ n < 64 ∧ low ≤ n + 128 ∧ n + 128 ≤ high ∧
      allSome (if missing ≤ 1 then some (Char.ofNat (bits * 64 + n)) :: symbolsFrom .between rest
        else symbolsFrom (.inside (missing - 1) (bits * 64 + n) 0x80 0xBF) rest) = some s := by
  cases bytes with
  | nil => cases h
  | cons b rest =>
    rw [symbolsFrom_cons, step] at h
    by_cases hb : low ≤ b.toNat ∧ b.toNat ≤ high
    · rw [if_pos hb] at h
      have hn : b.toNat - 0x80 + 128 = b.toNat := by omega
      refine ⟨b.toNat - 0x80, rest, ?_, by omega, by omega, by omega, ?_⟩
      · rw [hn, UInt8.ofNat_toNat]
      · by_cases hmissing : missing ≤ 1
        · simpa [hmissing] using h
        · simpa [hmissing] using h
    · rw [if_neg hb] at h
      cases h

/-- Bytes begin with the first character of a text, and the others are read as the rest of it. -/
def Begins (bytes : List UInt8) (s : List Char) : Prop :=
  ∃ c rest bytes', bytes = String.utf8EncodeChar c ++ bytes' ∧ s = c :: rest ∧
    allSome (symbolsFrom .between bytes') = some rest

theorem begins_of_encodeChar (encoded : List UInt8) {c : Char} {bytes : List UInt8}
    {s : List Char} (hc : String.utf8EncodeChar c = encoded)
    (h : allSome (some c :: symbolsFrom .between bytes) = some s) :
    Begins (encoded ++ bytes) s := by
  obtain ⟨rest, hrest, rfl⟩ := Option.map_eq_some_iff.mp h
  exact ⟨c, rest, bytes, by rw [hc], rfl, hrest⟩

theorem begins_two {n : Nat} {bytes : List UInt8} {s : List Char} (hlow : 2 ≤ n) (hhigh : n < 32)
    (h : allSome (symbolsFrom (.inside 1 n 0x80 0xBF) bytes) = some s) :
    Begins (UInt8.ofNat (0xC0 + n) :: bytes) s := by
  obtain ⟨m, bytes, rfl, hm, -, -, h⟩ := exists_of_allSome_inside le_rfl le_rfl h
  rw [if_pos le_rfl] at h
  refine begins_of_encodeChar [_, _] ?_ h
  have hlead : (n * 64 + m) / 64 % 32 + 192 = 0xC0 + n := by omega
  have hlast : (n * 64 + m) % 64 + 128 = m + 128 := by omega
  rw [utf8EncodeChar_ofNat (.inl (by omega)), if_neg (by omega), if_pos (by omega), hlead, hlast]

theorem begins_three {n low high : Nat} {bytes : List UInt8} {s : List Char} (hn : n < 16)
    (hlow : low = if n = 0 then 0xA0 else 0x80) (hhigh : high = if n = 13 then 0x9F else 0xBF)
    (h : allSome (symbolsFrom (.inside 2 n low high) bytes) = some s) :
    Begins (UInt8.ofNat (0xE0 + n) :: bytes) s := by
  obtain ⟨m, bytes, rfl, hm, hle, hge, h⟩ :=
    exists_of_allSome_inside (by split_ifs at hlow <;> omega) (by split_ifs at hhigh <;> omega) h
  rw [if_neg (by omega)] at h
  obtain ⟨k, bytes, rfl, hk, -, -, h⟩ := exists_of_allSome_inside le_rfl le_rfl h
  rw [if_pos le_rfl] at h
  refine begins_of_encodeChar [_, _, _] ?_ h
  -- the range of the second byte keeps out what is too short and the surrogates
  have hcode : 0x7FF < (n * 64 + m) * 64 + k ∧ (n * 64 + m) * 64 + k ≤ 0xFFFF ∧
      ((n * 64 + m) * 64 + k < 0xD800 ∨ 0xDFFF < (n * 64 + m) * 64 + k) := by
    split_ifs at hlow hhigh <;> omega
  have hlead : ((n * 64 + m) * 64 + k) / 4096 % 16 + 224 = 0xE0 + n := by omega
  have hmiddle : ((n * 64 + m) * 64 + k) / 64 % 64 + 128 = m + 128 := by omega
  have hlast : ((n * 64 + m) * 64 + k) % 64 + 128 = k + 128 := by omega
  rw [utf8EncodeChar_ofNat (hcode.2.2.imp id fun h => ⟨h, by omega⟩), if_neg (by omega),
    if_neg (by omega), if_pos (by omega), hlead, hmiddle, hlast]

theorem begins_four {n low high : Nat} {bytes : List UInt8} {s : List Char} (hn : n < 5)
    (hlow : low = if n = 0 then 0x90 else 0x80) (hhigh : high = if n = 4 then 0x8F else 0xBF)
    (h : allSome (symbolsFrom (.inside 3 n low high) bytes) = some s) :
    Begins (UInt8.ofNat (0xF0 + n) :: bytes) s := by
  obtain ⟨m, bytes, rfl, hm, hle, hge, h⟩ :=
    exists_of_allSome_inside (by split_ifs at hlow <;> omega) (by split_ifs at hhigh <;> omega) h
  rw [if_neg (by omega)] at h
  obtain ⟨k, bytes, rfl, hk, -, -, h⟩ := exists_of_allSome_inside le_rfl le_rfl h
  rw [if_neg (by omega)] at h
  obtain ⟨l, bytes, rfl, hl, -, -, h⟩ := exists_of_allSome_inside le_rfl le_rfl h
  rw [if_pos le_rfl] at h
  refine begins_of_encodeChar [_, _, _, _] ?_ h
  -- here it keeps out what is too short and what lies beyond Unicode
  have hcode : 0xFFFF < ((n * 64 + m) * 64 + k) * 64 + l ∧
      ((n * 64 + m) * 64 + k) * 64 + l < 0x110000 := by
    split_ifs at hlow hhigh <;> omega
  have hlead : (((n * 64 + m) * 64 + k) * 64 + l) / 262144 % 8 + 240 = 0xF0 + n := by omega
  have hsecond : (((n * 64 + m) * 64 + k) * 64 + l) / 4096 % 64 + 128 = m + 128 := by omega
  have hthird : (((n * 64 + m) * 64 + k) * 64 + l) / 64 % 64 + 128 = k + 128 := by omega
  have hlast : (((n * 64 + m) * 64 + k) * 64 + l) % 64 + 128 = l + 128 := by omega
  rw [utf8EncodeChar_ofNat (.inr (by omega)), if_neg (by omega), if_neg (by omega),
    if_neg (by omega), hlead, hsecond, hthird, hlast]

/-- The first of the bytes that are read as a text are those of its first character. -/
theorem begins_of_allSome {b : UInt8} {bytes : List UInt8} {s : List Char}
    (h : allSome (symbolsFrom .between (b :: bytes)) = some s) : Begins (b :: bytes) s := by
  have hb : b = UInt8.ofNat b.toNat := UInt8.ofNat_toNat.symm
  have hlt : b.toNat < 256 := b.toNat_lt
  generalize b.toNat = v at hb hlt
  subst hb
  have hv : (UInt8.ofNat v).toNat = v := UInt8.toNat_ofNat_of_lt' hlt
  rw [symbolsFrom_cons, hv, step] at h
  rcases Nat.lt_or_ge v 0x80 with h1 | h1
  · rw [lead_one h1] at h
    refine begins_of_encodeChar [_] ?_ h
    rw [utf8EncodeChar_ofNat (.inl (by omega)), if_pos (by omega)]
  rcases Nat.lt_or_ge v 0xC2 with h2 | h2
  · rw [lead_none (.inl ⟨h1, h2⟩)] at h
    cases h
  rcases Nat.lt_or_ge v 0xE0 with h3 | h3
  · obtain ⟨n, rfl⟩ := Nat.exists_eq_add_of_le (show 0xC0 ≤ v by omega)
    rw [lead_two (by omega) (by omega)] at h
    exact begins_two (by omega) (by omega) h
  rcases Nat.lt_or_ge v 0xF0 with h4 | h4
  · obtain ⟨n, rfl⟩ := Nat.exists_eq_add_of_le (show 0xE0 ≤ v by omega)
    rw [lead_three (by omega)] at h
    exact begins_three (by omega) rfl rfl h
  rcases Nat.lt_or_ge v 0xF5 with h5 | h5
  · obtain ⟨n, rfl⟩ := Nat.exists_eq_add_of_le h4
    rw [lead_four (by omega)] at h
    exact begins_four (by omega) rfl rfl h
  · rw [lead_none (.inr h5)] at h
    cases h

theorem encode_of_allSome : ∀ {bytes : List UInt8} {s : List Char},
    allSome (symbolsFrom .between bytes) = some s → encode s = bytes
  | [], s, h => by
    obtain rfl : [] = s := Option.some.inj h
    rfl
  | b :: bytes, s, h => by
    obtain ⟨c, rest, bytes', heq, rfl, hrest⟩ := begins_of_allSome h
    have hlen : bytes'.length < bytes.length + 1 := by
      have hc := List.length_pos_iff.mpr (String.utf8EncodeChar_ne_nil (c := c))
      have := congrArg List.length heq
      rw [List.length_cons, List.length_append] at this
      omega
    rw [heq, encode_cons, encode_of_allSome hrest]
termination_by bytes => bytes.length

/-- **The bytes that are decoded are exactly the encodings of texts.** -/
theorem decode?_eq_some_iff {bytes : List UInt8} {s : List Char} :
    decode? bytes = some s ↔ encode s = bytes :=
  ⟨encode_of_allSome, fun h => h ▸ decode?_encode s⟩

theorem decode?_eq_none_iff {bytes : List UInt8} :
    decode? bytes = none ↔ ∀ s, encode s ≠ bytes := by
  rw [Option.eq_none_iff_forall_ne_some]
  exact forall_congr' fun s => not_congr decode?_eq_some_iff

theorem encode_injective {s t : List Char} (h : encode s = encode t) : s = t := by
  have := decode?_encode s
  rw [h, decode?_encode] at this
  exact (Option.some.inj this).symm

/-! ### Bytes that stand for themselves -/

/-- A byte of ASCII occurs as the encoding of a character, and not inside any other. -/
theorem utf8EncodeChar_of_mem {c : Char} {b : UInt8} (h : b ∈ String.utf8EncodeChar c)
    (hb : b.toNat < 0x80) : String.utf8EncodeChar c = [b] := by
  rw [String.utf8EncodeChar] at h ⊢
  have hbyte {n : Nat} (hn : 0x80 ≤ n) (hlt : n < 256) : b ≠ UInt8.ofNat n := by
    rintro rfl
    rw [UInt8.toNat_ofNat_of_lt' hlt] at hb
    omega
  split_ifs at h ⊢ with h1 h2 h3
  · rw [List.mem_singleton.mp h]
  · simp only [List.mem_cons, List.not_mem_nil, or_false] at h
    rcases h with h | h <;> exact absurd h (hbyte (by omega) (by omega))
  · simp only [List.mem_cons, List.not_mem_nil, or_false] at h
    rcases h with h | h | h <;> exact absurd h (hbyte (by omega) (by omega))
  · simp only [List.mem_cons, List.not_mem_nil, or_false] at h
    rcases h with h | h | h | h <;> exact absurd h (hbyte (by omega) (by omega))

/-- A character is that of ASCII whose byte is among its bytes. -/
theorem eq_of_mem_utf8EncodeChar {c d : Char} {b : UInt8} (h : b ∈ String.utf8EncodeChar c)
    (hd : String.utf8EncodeChar d = [b]) (hb : b.toNat < 0x80) : c = d := by
  have heq : encode [c] = encode [d] := by
    simp [hd, utf8EncodeChar_of_mem h hb]
  simpa using encode_injective heq

end CurrencyDesk.Text.Utf8
