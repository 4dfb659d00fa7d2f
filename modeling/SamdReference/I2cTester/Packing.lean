import SamdReference.I2cTester.Handlers

/-!
# Packing received bytes into words

The loop of `handleReadComplete` places byte `i` in octet `i % 4` of word `i / 4`,
most significant first. Octets are read back one at a time here, so the loop
invariant says of each of the eight octets whether the loop has reached it.
-/

namespace CuriosityReference.I2cTester

/-- Octet `k` of a word, most significant first. -/
def octet (word : UInt32) (k : Nat) : UInt8 :=
  (word >>> UInt32.ofNat (24 - 8 * k)).toUInt8

/-- The eight octets of two words in downlink order. -/
def octets (words : Vector UInt32 2) : Vector UInt8 8 :=
  Vector.ofFn fun i => octet words[i.val / 4] (i.val % 4)

/-- The first `n` bytes of a buffer, zeros after them. -/
def padded (buffer : Vector UInt8 8) (n : Nat) : Vector UInt8 8 :=
  Vector.ofFn fun i => if i.val < n then buffer.get i else 0

theorem octet_or (a b : UInt32) (k : Nat) : octet (a ||| b) k = octet a k ||| octet b k := by
  rw [octet, UInt32.shiftRight_or, UInt32.toUInt8_or, octet, octet]

theorem octet_zero (k : Nat) : octet 0 k = 0 := by
  simp [octet]

/-- A byte shifted to position `j` occupies that octet and no other. -/
theorem octet_shiftLeft (byte : UInt8) {j k : Nat} (hj : j < 4) (hk : k < 4) :
    octet (byte.toUInt32 <<< UInt32.ofNat (24 - 8 * j)) k = if j = k then byte else 0 := by
  have bound := byte.toNat_lt
  have cases4 : ∀ n : Nat, n < 4 → n = 0 ∨ n = 1 ∨ n = 2 ∨ n = 3 := by omega
  apply UInt8.toNat_inj.mp
  rcases cases4 j hj with rfl | rfl | rfl | rfl <;>
    rcases cases4 k hk with rfl | rfl | rfl | rfl <;>
    simp [octet, Nat.shiftLeft_eq, Nat.shiftRight_eq_div_pow] <;> omega

/-- A word is told by its four octets. -/
theorem octet_injective {a b : UInt32} (h : ∀ k < 4, octet a k = octet b k) : a = b := by
  have digit : ∀ (word : UInt32) (k : Nat), k < 4 →
      (octet word k).toNat = word.toNat / 2 ^ (24 - 8 * k) % 256 := by
    intro word k hk
    have shift : (24 - 8 * k) % 32 = 24 - 8 * k := by omega
    simp [octet, Nat.shiftRight_eq_div_pow, shift]
  have same : ∀ k < 4, a.toNat / 2 ^ (24 - 8 * k) % 256 = b.toNat / 2 ^ (24 - 8 * k) % 256 := by
    intro k hk
    rw [← digit a k hk, ← digit b k hk, h k hk]
  have first := same 0 (by decide)
  have second := same 1 (by decide)
  have third := same 2 (by decide)
  have fourth := same 3 (by decide)
  have := a.toNat_lt
  have := b.toNat_lt
  apply UInt32.toNat_inj.mp
  omega

/-- Different words have different octets. -/
theorem octets_injective {a b : Vector UInt32 2} (h : octets a = octets b) : a = b := by
  apply Vector.ext
  intro i hi
  apply octet_injective
  intro k hk
  have bound : 4 * i + k < 8 := by omega
  have word : (4 * i + k) / 4 = i := by omega
  have slot : (4 * i + k) % 4 = k := by omega
  have spelled := congrArg (fun v => v.get ⟨4 * i + k, bound⟩) h
  simpa only [octets, ofFn_get, word, slot] using spelled

theorem words_ext {a b : Vector UInt32 2} (first : a.get 0 = b.get 0)
    (second : a.get 1 = b.get 1) : a = b := by
  apply Vector.ext
  intro i hi
  obtain rfl | rfl : i = 0 ∨ i = 1 := by omega
  · exact first
  · exact second

theorem packByte_octets (words : Vector UInt32 2) {n : Nat} (hn : n < 8) (byte : UInt8) :
    ∃ next, packByte words n byte = some next ∧
      ∀ i : Fin 8,
        (octets next).get i = (octets words).get i ||| if i.val = n then byte else 0 := by
  have word : n / 4 < 2 := by omega
  refine ⟨_, dif_pos word, ?_⟩
  intro i
  simp only [octets, ofFn_get]
  by_cases same : n / 4 = i.val / 4
  · have slot : i.val = n ↔ n % 4 = i.val % 4 := by omega
    simp [← same, octet_or, slot,
      octet_shiftLeft byte (Nat.mod_lt n (by decide)) (Nat.mod_lt i.val (by decide))]
  · have other : i.val ≠ n := fun h => same (by rw [h])
    simp [Vector.getElem_set_ne _ _ same, other]

/-- The loop over `n` bytes reads no byte at `n` or beyond. -/
theorem packWords_congr {data data' : Nat → Option UInt8} {n : Nat}
    (same : ∀ i < n, data i = data' i) : packWords data n = packWords data' n := by
  induction n with
  | zero => rfl
  | succ n ih =>
      have before := ih fun i below => same i (Nat.lt_succ_of_lt below)
      rw [packWords, packWords] at before ⊢
      rw [List.range_succ, List.foldlM_append, List.foldlM_append, before]
      simp [same n (Nat.lt_succ_self n)]

/-- The loop succeeds on every length up to eight, and the octets of its words are
the bytes it read followed by zeros. -/
theorem packWords_octets {data : Nat → Option UInt8} {buffer : Vector UInt8 8}
    (read : ∀ i : Fin 8, data i.val = some (buffer.get i)) {n : Nat} (hn : n ≤ 8) :
    ∃ words, packWords data n = some words ∧ octets words = padded buffer n := by
  suffices loop : ∃ words, packWords data n = some words ∧
      ∀ i : Fin 8, (octets words).get i = if i.val < n then buffer.get i else 0 by
    obtain ⟨words, packed, each⟩ := loop
    refine ⟨words, packed, ?_⟩
    apply buffer_ext
    intro i
    rw [each i, padded, ofFn_get]
  induction n with
  | zero =>
      refine ⟨_, rfl, ?_⟩
      intro i
      rw [octets, ofFn_get]
      simp [octet_zero]
  | succ n ih =>
      have bound : n < 8 := by omega
      obtain ⟨words, packed, each⟩ := ih (by omega)
      obtain ⟨next, stored, octet⟩ := packByte_octets words bound (buffer.get ⟨n, bound⟩)
      refine ⟨next, ?_, ?_⟩
      · have byte : data n = some (buffer.get ⟨n, bound⟩) := read ⟨n, bound⟩
        rw [packWords] at packed ⊢
        rw [List.range_succ, List.foldlM_append, packed]
        simp [byte, stored]
      · intro i
        rw [octet i, each i]
        rcases Nat.lt_trichotomy i.val n with below | here | above
        · simp [below, Nat.ne_of_lt below, Nat.lt_succ_of_lt below]
        · obtain rfl : i = ⟨n, bound⟩ := Fin.ext here
          simp
        · simp [Nat.not_lt.mpr (Nat.le_of_lt above), Nat.ne_of_gt above,
            Nat.not_lt.mpr (Nat.succ_le_of_lt above)]

end CuriosityReference.I2cTester
