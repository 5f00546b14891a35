import CommandPool.Proofs.Text.ByteOrder

/-!
# Decoding is the inverse of encoding

Bytes are decoded as a text exactly when they are the bytes of that text (`decode_eq_ok_iff`).
A character is read byte by byte.  `Pending.Ends` says which bytes may still follow when the
first ones are read, and which character they make.  A first byte and the bytes that end it are
those of one character in its shortest form: `lead_of_encodeChar` takes the bytes of a character
apart in this way, and `encodeChar_of_lead` puts them together.
-/

namespace CommandPool.Text.Utf8

/-! ## Inside a character -/

/-- What a character has read with one more byte. -/
def Pending.push (p : Pending) (more : Nat) (b : UInt8) : Pending :=
  ⟨p.start, p.seen + 1, more, 0x80, 0xBF, p.bits * 64 + b.toNat % 64⟩

/-- The bytes end the character that was begun. -/
def Pending.Ends (p : Pending) : List UInt8 → Char → Prop
  | [], _ => False
  | b :: bs, c =>
    p.low ≤ b.toNat ∧ b.toNat ≤ p.high ∧
      match p.more with
      | 0 => bs = [] ∧ c = Char.ofNat (p.bits * 64 + b.toNat % 64)
      | more + 1 => (p.push more b).Ends bs c

theorem scan_of_ends {p : Pending} {tail : List UInt8} {c : Char} (ends : p.Ends tail c)
    (index : Nat) (rest : List UInt8) :
    scan index (some p) (tail ++ rest) = (c :: ·) <$> scan (index + tail.length) none rest := by
  induction tail generalizing p index with
  | nil => exact ends.elim
  | cons b tail ih =>
    obtain ⟨low, high, after⟩ := ends
    have inside : (decide (p.low ≤ b.toNat) && decide (b.toNat ≤ p.high)) = true := by
      simp [low, high]
    rw [List.cons_append, scan, if_pos inside]
    dsimp only
    split
    next last =>
      rw [last] at after
      obtain ⟨rfl, rfl⟩ := after
      rfl
    next more left =>
      rw [left] at after
      rw [List.length_cons, Nat.add_comm tail.length 1, ← Nat.add_assoc]
      exact ih after (index + 1)

theorem ends_of_scan {p : Pending} {bytes : List UInt8} {cs : List Char} {index : Nat}
    (read : scan index (some p) bytes = .ok cs) :
    ∃ tail rest c cs', bytes = tail ++ rest ∧ p.Ends tail c ∧ cs = c :: cs' ∧
      scan (index + tail.length) none rest = .ok cs' := by
  induction bytes generalizing p index with
  | nil => cases read
  | cons b bytes ih =>
    rw [scan] at read
    split at read
    next inside =>
      simp only [Bool.and_eq_true, decide_eq_true_eq] at inside
      dsimp only at read
      split at read
      next last =>
        cases after : scan (index + 1) none bytes with
        | error f => rw [after] at read; cases read
        | ok cs' =>
          rw [after] at read
          cases read
          refine ⟨[b], bytes, _, cs', rfl, ⟨inside.1, inside.2, ?_⟩, rfl, after⟩
          rw [last]
          exact ⟨rfl, rfl⟩
      next more left =>
        obtain ⟨tail, rest, c, cs', rfl, ends, rfl, after⟩ := ih read
        refine ⟨b :: tail, rest, c, cs', rfl, ⟨inside.1, inside.2, ?_⟩, rfl, ?_⟩
        · rw [left]
          exact ends
        · rw [List.length_cons, Nat.add_comm tail.length 1, ← Nat.add_assoc]
          exact after
    next => cases read

/-! ## First bytes -/

/-- The first bytes of longer characters, with what may follow them.  After the least and the
greatest one of each length fewer bytes may follow, and after `0xED`, which starts the
surrogates. -/
inductive Leads (index : Nat) : Nat → Pending → Prop where
  | two {b : Nat} : 0xC2 ≤ b → b ≤ 0xDF → Leads index b ⟨index, 1, 0, 0x80, 0xBF, b - 0xC0⟩
  | leastThree : Leads index 0xE0 ⟨index, 1, 1, 0xA0, 0xBF, 0⟩
  | surrogates : Leads index 0xED ⟨index, 1, 1, 0x80, 0x9F, 0xD⟩
  | three {b : Nat} : 0xE1 ≤ b → b ≤ 0xEF → b ≠ 0xED →
      Leads index b ⟨index, 1, 1, 0x80, 0xBF, b - 0xE0⟩
  | leastFour : Leads index 0xF0 ⟨index, 1, 2, 0x90, 0xBF, 0⟩
  | four {b : Nat} : 0xF1 ≤ b → b ≤ 0xF3 → Leads index b ⟨index, 1, 2, 0x80, 0xBF, b - 0xF0⟩
  | greatest : Leads index 0xF4 ⟨index, 1, 2, 0x80, 0x8F, 4⟩

theorem lead_eq_some_iff {index b : Nat} {p : Pending} :
    lead index b = some p ↔ Leads index b p := by
  constructor
  · intro begins
    simp only [lead, Bool.and_eq_true, decide_eq_true_eq, beq_iff_eq] at begins
    split at begins
    next two => cases begins; exact .two two.1 two.2
    next =>
    split at begins
    next least => cases begins; subst least; exact .leastThree
    next =>
    split at begins
    next surrogates => cases begins; subst surrogates; exact .surrogates
    next other =>
    split at begins
    next three => cases begins; exact .three three.1 three.2 other
    next =>
    split at begins
    next least => cases begins; subst least; exact .leastFour
    next =>
    split at begins
    next four => cases begins; exact .four four.1 four.2
    next =>
    split at begins
    next greatest => cases begins; subst greatest; exact .greatest
    next => cases begins
  · intro leads
    simp only [lead, Bool.and_eq_true, decide_eq_true_eq, beq_iff_eq]
    cases leads with
    | two low high => rw [if_pos ⟨low, high⟩]
    | three low high other =>
      rw [if_neg (by omega), if_neg (by omega), if_neg other, if_pos ⟨low, high⟩]
    | four low high =>
      rw [if_neg (by omega), if_neg (by omega), if_neg (by omega), if_neg (by omega),
        if_neg (by omega), if_pos ⟨low, high⟩]
    | _ => rfl

/-! ## Characters -/

theorem val_ofNat {n : Nat} (valid : n.isValidChar) : (Char.ofNat n).val.toNat = n := by
  rw [Char.ofNat, dif_pos valid]
  rfl

theorem ofNat_val (c : Char) : Char.ofNat c.val.toNat = c := by
  rw [Char.toNat_val, Char.ofNat_toNat]

/-- A byte below `0x80` is a character, and it is the one that has this byte. -/
theorem encodeChar_ofNat_of_lt {b : UInt8} (ascii : b < 0x80) :
    String.utf8EncodeChar (Char.ofNat b.toNat) = [b] := by
  have small : b.toNat < 128 := ascii
  have number : (Char.ofNat b.toNat).val.toNat = b.toNat :=
    val_ofNat (Or.inl (by omega))
  rw [String.utf8EncodeChar, number, if_pos (by omega), UInt8.ofNat_toNat]

/-- A number is encoded in as many bytes as it needs. -/
theorem encodeChar_of_number {n : Nat} (valid : n.isValidChar) :
    String.utf8EncodeChar (Char.ofNat n) =
      if n ≤ 127 then [UInt8.ofNat n]
      else if n ≤ 2047 then [UInt8.ofNat (n / 64 % 32 + 192), UInt8.ofNat (n % 64 + 128)]
      else if n ≤ 65535 then [UInt8.ofNat (n / 4096 % 16 + 224),
        UInt8.ofNat (n / 64 % 64 + 128), UInt8.ofNat (n % 64 + 128)]
      else [UInt8.ofNat (n / 262144 % 8 + 240), UInt8.ofNat (n / 4096 % 64 + 128),
        UInt8.ofNat (n / 64 % 64 + 128), UInt8.ofNat (n % 64 + 128)] := by
  rw [String.utf8EncodeChar, val_ofNat valid]

/-- A byte that is not the first one of its character. -/
structure IsLater (b : UInt8) : Prop where
  low : 0x80 ≤ b.toNat
  high : b.toNat ≤ 0xBF

/-- The bytes of a character that has three: two would not do, and it is no surrogate. -/
structure IsThree (bits : Nat) (b t u : UInt8) : Prop where
  first : b.toNat = bits + 0xE0
  small : bits < 16
  second : IsLater t
  third : IsLater u
  long : bits = 0 → 0xA0 ≤ t.toNat
  proper : bits = 13 → t.toNat ≤ 0x9F

/-- The bytes of a character that has four: three would not do, and it is not above the greatest
number. -/
structure IsFour (bits : Nat) (b t u w : UInt8) : Prop where
  first : b.toNat = bits + 0xF0
  small : bits ≤ 4
  second : IsLater t
  third : IsLater u
  fourth : IsLater w
  long : bits = 0 → 0x90 ≤ t.toNat
  proper : bits = 4 → t.toNat ≤ 0x8F

theorem IsThree.encodeChar {bits : Nat} {b t u : UInt8} (three : IsThree bits b t u) :
    String.utf8EncodeChar (Char.ofNat ((bits * 64 + t.toNat % 64) * 64 + u.toNat % 64)) =
      [b, t, u] := by
  obtain ⟨first, small, ⟨low, high⟩, ⟨low', high'⟩, long, proper⟩ := three
  have valid : ((bits * 64 + t.toNat % 64) * 64 + u.toNat % 64).isValidChar := by
    unfold Nat.isValidChar
    omega
  rw [encodeChar_of_number valid, if_neg (by omega), if_neg (by omega), if_pos (by omega)]
  simp only [List.cons.injEq, ← UInt8.toNat_inj, UInt8.toNat_ofNat', and_true]
  omega

theorem IsFour.encodeChar {bits : Nat} {b t u w : UInt8} (four : IsFour bits b t u w) :
    String.utf8EncodeChar (Char.ofNat
        (((bits * 64 + t.toNat % 64) * 64 + u.toNat % 64) * 64 + w.toNat % 64)) =
      [b, t, u, w] := by
  obtain ⟨first, small, ⟨low, high⟩, ⟨low', high'⟩, ⟨low'', high''⟩, long, proper⟩ := four
  have valid :
      (((bits * 64 + t.toNat % 64) * 64 + u.toNat % 64) * 64 + w.toNat % 64).isValidChar := by
    unfold Nat.isValidChar
    omega
  rw [encodeChar_of_number valid, if_neg (by omega), if_neg (by omega), if_neg (by omega)]
  simp only [List.cons.injEq, ← UInt8.toNat_inj, UInt8.toNat_ofNat', and_true]
  omega

/-! ## From a character to its bytes -/

theorem Pending.ends_two {p : Pending} {t u : UInt8} (more : p.more = 1) (low : p.low ≤ t.toNat)
    (high : t.toNat ≤ p.high) (third : IsLater u) :
    p.Ends [t, u] (Char.ofNat ((p.bits * 64 + t.toNat % 64) * 64 + u.toNat % 64)) := by
  refine ⟨low, high, ?_⟩
  rw [more]
  exact ⟨third.low, third.high, rfl, rfl⟩

theorem Pending.ends_three {p : Pending} {t u w : UInt8} (more : p.more = 2)
    (low : p.low ≤ t.toNat) (high : t.toNat ≤ p.high) (third : IsLater u) (fourth : IsLater w) :
    p.Ends [t, u, w] (Char.ofNat
      (((p.bits * 64 + t.toNat % 64) * 64 + u.toNat % 64) * 64 + w.toNat % 64)) := by
  refine ⟨low, high, ?_⟩
  rw [more]
  exact ends_two rfl third.low third.high fourth

theorem IsThree.leads {bits : Nat} {b t u : UInt8} (three : IsThree bits b t u) (index : Nat) :
    ∃ p, Leads index b.toNat p ∧
      p.Ends [t, u] (Char.ofNat ((bits * 64 + t.toNat % 64) * 64 + u.toNat % 64)) := by
  obtain ⟨first, small, ⟨low, high⟩, third, long, proper⟩ := three
  rw [first]
  by_cases least : bits = 0
  · subst least
    exact ⟨_, .leastThree, Pending.ends_two rfl (long rfl) high third⟩
  by_cases surrogates : bits = 13
  · subst surrogates
    exact ⟨_, .surrogates, Pending.ends_two rfl low (proper rfl) third⟩
  have leads : Leads index (bits + 0xE0) _ := .three (by omega) (by omega) (by omega)
  rw [Nat.add_sub_cancel] at leads
  exact ⟨_, leads, Pending.ends_two rfl low high third⟩

theorem IsFour.leads {bits : Nat} {b t u w : UInt8} (four : IsFour bits b t u w) (index : Nat) :
    ∃ p, Leads index b.toNat p ∧ p.Ends [t, u, w] (Char.ofNat
      (((bits * 64 + t.toNat % 64) * 64 + u.toNat % 64) * 64 + w.toNat % 64)) := by
  obtain ⟨first, small, ⟨low, high⟩, third, fourth, long, proper⟩ := four
  rw [first]
  by_cases least : bits = 0
  · subst least
    exact ⟨_, .leastFour, Pending.ends_three rfl (long rfl) high third fourth⟩
  by_cases greatest : bits = 4
  · subst greatest
    exact ⟨_, .greatest, Pending.ends_three rfl low (proper rfl) third fourth⟩
  have leads : Leads index (bits + 0xF0) _ := .four (by omega) (by omega)
  rw [Nat.add_sub_cancel] at leads
  exact ⟨_, leads, Pending.ends_three rfl low high third fourth⟩

/-- The first byte of a character, and those that end it. -/
theorem lead_of_encodeChar {c : Char} {b : UInt8} {tail : List UInt8}
    (bytes : String.utf8EncodeChar c = b :: tail) (index : Nat) :
    b < 0x80 ∧ tail = [] ∧ c = Char.ofNat b.toNat ∨
      ¬ b < 0x80 ∧ ∃ p, lead index b.toNat = some p ∧ p.Ends tail c := by
  obtain ⟨v, number⟩ : ∃ v, c.val.toNat = v := ⟨_, rfl⟩
  have limit : v < 0xD800 ∨ 0xDFFF < v ∧ v < 0x110000 := number ▸ c.valid
  have same : c = Char.ofNat v := by rw [← number, ofNat_val]
  have byte : ∀ n < 256, (UInt8.ofNat n).toNat = n := fun n small => UInt8.toNat_ofNat_of_lt' small
  have later : ∀ n, IsLater (UInt8.ofNat (n % 64 + 128)) := fun n => by
    constructor <;> rw [byte _ (by omega)] <;> omega
  rw [String.utf8EncodeChar, number] at bytes
  simp only [UInt8.lt_iff_toNat_lt, lead_eq_some_iff, same]
  split at bytes
  next one =>
    cases bytes
    rw [byte v (by omega)]
    exact Or.inl ⟨show v < 128 by omega, rfl, rfl⟩
  next =>
  split at bytes
  next two =>
    cases bytes
    have first := byte (v / 64 % 32 + 192) (by omega)
    have last := byte (v % 64 + 128) (by omega)
    refine Or.inr ⟨show ¬ _ < 128 by omega, _, .two (by omega) (by omega), (later v).low,
      (later v).high, rfl, ?_⟩
    rw [first, last]
    congr 1
    show v = (v / 64 % 32 + 192 - 192) * 64 + (v % 64 + 128) % 64
    omega
  next =>
  split at bytes
  next three =>
    cases bytes
    have first := byte (v / 4096 % 16 + 224) (by omega)
    have second := byte (v / 64 % 64 + 128) (by omega)
    have last := byte (v % 64 + 128) (by omega)
    have three : IsThree (v / 4096 % 16) _ _ _ :=
      ⟨first, by omega, later (v / 64), later v, by omega, by omega⟩
    have sum : ((v / 4096 % 16) * 64 + (v / 64 % 64 + 128) % 64) * 64 + (v % 64 + 128) % 64 =
        v := by
      omega
    obtain ⟨p, leads, ends⟩ := three.leads index
    rw [second, last, sum] at ends
    exact Or.inr ⟨show ¬ _ < 128 by omega, p, leads, ends⟩
  next =>
    cases bytes
    have first := byte (v / 262144 % 8 + 240) (by omega)
    have second := byte (v / 4096 % 64 + 128) (by omega)
    have third := byte (v / 64 % 64 + 128) (by omega)
    have last := byte (v % 64 + 128) (by omega)
    have four : IsFour (v / 262144 % 8) _ _ _ _ :=
      ⟨first, by omega, later (v / 4096), later (v / 64), later v, by omega, by omega⟩
    have sum : (((v / 262144 % 8) * 64 + (v / 4096 % 64 + 128) % 64) * 64 +
        (v / 64 % 64 + 128) % 64) * 64 + (v % 64 + 128) % 64 = v := by
      omega
    obtain ⟨p, leads, ends⟩ := four.leads index
    rw [second, third, last, sum] at ends
    exact Or.inr ⟨show ¬ _ < 128 by omega, p, leads, ends⟩

/-! ## From bytes to their character -/

/-- The bytes that end a character, by how many there are. -/
theorem tail_of_ends {p : Pending} {tail : List UInt8} {c : Char} (ends : p.Ends tail c) :
    ∃ t rest, tail = t :: rest ∧ p.low ≤ t.toNat ∧ t.toNat ≤ p.high ∧
      (p.more = 0 → rest = [] ∧ c = Char.ofNat (p.bits * 64 + t.toNat % 64)) ∧
      ∀ more, p.more = more + 1 → (p.push more t).Ends rest c := by
  cases tail with
  | nil => exact ends.elim
  | cons t rest =>
    obtain ⟨low, high, after⟩ := ends
    refine ⟨t, rest, rfl, low, high, fun last => ?_, fun more left => ?_⟩
    · rw [last] at after
      exact after
    · rw [left] at after
      exact after

/-- The last two bytes of a character. -/
theorem two_of_ends {p : Pending} {tail : List UInt8} {c : Char} (ends : p.Ends tail c)
    (more : p.more = 1) : ∃ t u, tail = [t, u] ∧ p.low ≤ t.toNat ∧ t.toNat ≤ p.high ∧
      IsLater u ∧ c = Char.ofNat ((p.bits * 64 + t.toNat % 64) * 64 + u.toNat % 64) := by
  obtain ⟨t, rest, rfl, low, high, _, after⟩ := tail_of_ends ends
  obtain ⟨u, rest, rfl, low', high', last, _⟩ := tail_of_ends (after 0 more)
  obtain ⟨rfl, same⟩ := last rfl
  exact ⟨t, u, rfl, low, high, ⟨low', high'⟩, same⟩

/-- The last three bytes of a character. -/
theorem three_of_ends {p : Pending} {tail : List UInt8} {c : Char} (ends : p.Ends tail c)
    (more : p.more = 2) : ∃ t u w, tail = [t, u, w] ∧ p.low ≤ t.toNat ∧ t.toNat ≤ p.high ∧
      IsLater u ∧ IsLater w ∧ c = Char.ofNat
        (((p.bits * 64 + t.toNat % 64) * 64 + u.toNat % 64) * 64 + w.toNat % 64) := by
  obtain ⟨t, rest, rfl, low, high, _, after⟩ := tail_of_ends ends
  obtain ⟨u, w, rfl, low', high', fourth, same⟩ := two_of_ends (after 1 more) rfl
  exact ⟨t, u, w, rfl, low, high, ⟨low', high'⟩, fourth, same⟩

/-- A first byte and the bytes that end it are those of a character. -/
theorem encodeChar_of_lead {c : Char} {b : UInt8} {tail : List UInt8} {p : Pending} {index : Nat}
    (begins : lead index b.toNat = some p) (ends : p.Ends tail c) :
    String.utf8EncodeChar c = b :: tail := by
  rw [lead_eq_some_iff] at begins
  generalize first : b.toNat = n at begins
  cases begins with
  | two low high =>
    obtain ⟨t, rest, rfl, low', high', last, _⟩ := tail_of_ends ends
    obtain ⟨rfl, rfl⟩ := last rfl
    simp only at low' high' ⊢
    rw [encodeChar_of_number (Or.inl (by omega)), if_neg (by omega), if_pos (by omega)]
    simp only [List.cons.injEq, ← UInt8.toNat_inj, UInt8.toNat_ofNat', and_true]
    omega
  | leastThree =>
    obtain ⟨t, u, rfl, low, high, third, rfl⟩ := two_of_ends ends rfl
    exact IsThree.encodeChar
      ⟨first, by simp, ⟨by simp only at low; omega, high⟩, third, fun _ => low, nofun⟩
  | surrogates =>
    obtain ⟨t, u, rfl, low, high, third, rfl⟩ := two_of_ends ends rfl
    exact IsThree.encodeChar
      ⟨first, by simp, ⟨low, by simp only at high; omega⟩, third, nofun, fun _ => high⟩
  | three from_ to_ other =>
    obtain ⟨t, u, rfl, low, high, third, rfl⟩ := two_of_ends ends rfl
    refine IsThree.encodeChar ⟨?_, ?_, ⟨low, high⟩, third, ?_, ?_⟩ <;> simp only <;> omega
  | leastFour =>
    obtain ⟨t, u, w, rfl, low, high, third, fourth, rfl⟩ := three_of_ends ends rfl
    exact IsFour.encodeChar
      ⟨first, by simp, ⟨by simp only at low; omega, high⟩, third, fourth, fun _ => low, nofun⟩
  | four from_ to_ =>
    obtain ⟨t, u, w, rfl, low, high, third, fourth, rfl⟩ := three_of_ends ends rfl
    refine IsFour.encodeChar ⟨?_, ?_, ⟨low, high⟩, third, fourth, ?_, ?_⟩ <;> simp only <;> omega
  | greatest =>
    obtain ⟨t, u, w, rfl, low, high, third, fourth, rfl⟩ := three_of_ends ends rfl
    exact IsFour.encodeChar
      ⟨first, by simp, ⟨low, by simp only at high; omega⟩, third, fourth, nofun, fun _ => high⟩

/-! ## Texts -/

theorem scan_encodeChar (c : Char) (index : Nat) (rest : List UInt8) :
    ∃ next, scan index none (String.utf8EncodeChar c ++ rest) =
      (c :: ·) <$> scan next none rest := by
  cases bytes : String.utf8EncodeChar c with
  | nil => exact absurd bytes String.utf8EncodeChar_ne_nil
  | cons b tail =>
    rcases lead_of_encodeChar bytes index with ⟨ascii, rfl, rfl⟩ | ⟨longer, p, begins, ends⟩
    · exact ⟨index + 1, by rw [List.cons_append, scan, if_pos ascii]; rfl⟩
    · refine ⟨index + 1 + tail.length, ?_⟩
      rw [List.cons_append, scan, if_neg longer, begins]
      exact scan_of_ends ends (index + 1) rest

theorem scan_flatMap (cs : List Char) (index : Nat) :
    scan index none (cs.flatMap String.utf8EncodeChar) = .ok cs := by
  induction cs generalizing index with
  | nil => rfl
  | cons c cs ih =>
    obtain ⟨next, read⟩ := scan_encodeChar c index (cs.flatMap String.utf8EncodeChar)
    rw [List.flatMap_cons, read, ih]
    rfl

theorem flatMap_of_scan {bytes : List UInt8} {cs : List Char} {index : Nat}
    (read : scan index none bytes = .ok cs) : bytes = cs.flatMap String.utf8EncodeChar := by
  induction h : bytes.length using Nat.strongRecOn generalizing bytes cs index with
  | ind n ih =>
    cases bytes with
    | nil => cases read; rfl
    | cons b bytes =>
      rw [scan] at read
      split at read
      next ascii =>
        cases after : scan (index + 1) none bytes with
        | error f => rw [after] at read; cases read
        | ok cs' =>
          rw [after] at read
          cases read
          rw [List.flatMap_cons, encodeChar_ofNat_of_lt ascii,
            ← ih bytes.length (by rw [← h]; exact Nat.lt_succ_self _) after rfl]
          rfl
      next =>
        split at read
        next p begins =>
          obtain ⟨tail, rest, c, cs', rfl, ends, rfl, after⟩ := ends_of_scan read
          have shorter : rest.length < n := by
            rw [← h, List.length_cons, List.length_append]
            omega
          rw [List.flatMap_cons, encodeChar_of_lead begins ends, ← ih rest.length shorter after rfl]
          rfl
        next => cases read

/-- Bytes are decoded as a text exactly when they are its bytes. -/
theorem decode_eq_ok_iff {bytes : List UInt8} {s : String} :
    decode bytes = .ok s ↔ encode s = bytes := by
  rw [encode_eq]
  constructor
  · intro read
    cases after : scan 0 none bytes with
    | error f => rw [decode, after] at read; cases read
    | ok cs =>
      rw [decode, after] at read
      cases read
      rw [String.toList_ofList, ← flatMap_of_scan after]
  · rintro rfl
    rw [decode, scan_flatMap]
    exact congrArg Except.ok (String.ofList_toList)

theorem encode_injective {s t : String} (same : encode s = encode t) : s = t :=
  Except.ok.inj ((decode_eq_ok_iff.mpr same).symm.trans (decode_eq_ok_iff.mpr rfl))

/-! ## Bytes below `0x80` -/

/-- A character that has a byte below `0x80` has no other one. -/
theorem encodeChar_of_mem {c : Char} {b : UInt8} (member : b ∈ String.utf8EncodeChar c)
    (ascii : b < 0x80) : String.utf8EncodeChar c = [b] := by
  have low : b.toNat < 128 := ascii
  rw [String.utf8EncodeChar] at member ⊢
  split at member
  next small => rw [if_pos small, List.mem_singleton.mp member]
  next =>
    -- All bytes of a longer character are `0x80` or more.
    split at member <;> try split at member
    all_goals
      simp only [List.mem_cons, List.not_mem_nil, or_false] at member
      rcases member with rfl | rfl | rfl | rfl <;>
        (rw [UInt8.toNat_ofNat'] at low; omega)

/-- A text has a byte below `0x80` where it has the character with this number. -/
theorem mem_encode_iff {s : String} {b : UInt8} (ascii : b < 0x80) :
    b ∈ encode s ↔ Char.ofNat b.toNat ∈ s.toList := by
  rw [encode_eq, List.mem_flatMap]
  constructor
  · rintro ⟨c, inside, member⟩
    rcases lead_of_encodeChar (encodeChar_of_mem member ascii) 0 with ⟨_, _, rfl⟩ | ⟨longer, _⟩
    · exact inside
    · exact absurd ascii longer
  · intro inside
    exact ⟨_, inside, by rw [encodeChar_ofNat_of_lt ascii]; exact List.mem_singleton_self b⟩

/-- A text with one more character, which is a byte below `0x80`. -/
theorem encode_concat {b : UInt8} (s : String) (ascii : b < 0x80) :
    encode (String.ofList (s.toList ++ [Char.ofNat b.toNat])) = encode s ++ [b] := by
  rw [encode_eq, encode_eq, String.toList_ofList, List.flatMap_append, List.flatMap_singleton,
    encodeChar_ofNat_of_lt ascii]

/-- A byte below `0x80` at the end plays no part in whether bytes are UTF-8. -/
theorem encoded_concat_iff {bytes : List UInt8} {b : UInt8} (ascii : b < 0x80) :
    (∃ s, encode s = bytes ++ [b]) ↔ ∃ s, encode s = bytes := by
  constructor
  · rintro ⟨s, whole⟩
    rw [encode_eq] at whole
    rcases List.eq_nil_or_concat s.toList with none | ⟨init, c, split⟩
    · rw [none] at whole
      exact absurd whole.symm (List.append_ne_nil_of_right_ne_nil _ (List.cons_ne_nil _ _))
    · rcases List.eq_nil_or_concat (String.utf8EncodeChar c) with none | ⟨front, x, char⟩
      · exact absurd none String.utf8EncodeChar_ne_nil
      · rw [split, List.concat_eq_append, List.flatMap_append, List.flatMap_singleton, char,
          List.concat_eq_append, ← List.append_assoc] at whole
        obtain ⟨before, same⟩ := List.append_inj' whole rfl
        cases same
        rw [List.concat_eq_append] at char
        have alone := encodeChar_of_mem (char ▸ List.mem_concat_self) ascii
        have none : front = [] := List.append_left_eq_self.mp (char.symm.trans alone)
        refine ⟨String.ofList init, ?_⟩
        rw [encode_eq, String.toList_ofList, ← before, none, List.append_nil]
  · rintro ⟨s, rfl⟩
    exact ⟨_, encode_concat s ascii⟩

end CommandPool.Text.Utf8
