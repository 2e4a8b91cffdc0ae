import Mathlib

/-!
# Merkle trees that pair the last hash of an odd level with itself

A level of hashes is reduced to the next by hashing adjacent pairs, and the
last hash of an odd level with itself (`nextLevel`); the root is the hash left
when one remains (`levelRoot`). Level `j` has `width n j` hashes for `n`
leaves, and `node leaves j i` is the hash at index `i` of level `j`, defined
from the two below it; `iterate_nextLevel` says the levels are the `node`s.

The sibling of index `i` on level `j` is the other child of its parent, the
hash itself for the last of an odd level (`sibling`); hashing a leaf up with
the siblings of its path gives the node above it (`node_succ_half`).

## Main results

* `iterate_nextLevel` — level `j` is `node leaves j i` for `i < width n j`.
* `levelRoot_eq_node` — the root by levels is `node leaves L 0` for the
  first level `L` of width one.
* `width_bounds` — `width n j` is the quotient `n / 2 ^ j` rounded up.
* `hasEqualCompleteSiblings_iff` — for an injective hash, equal siblings on
  some level force equal complete siblings.
-/

namespace FairCoin.Verified.MerkleTree

variable {D : Type} (hash : D → D → D)

/-- One level up: adjacent pairs hashed, the last of an odd level with itself. -/
def nextLevel : List D → List D
  | [] => []
  | [x] => [hash x x]
  | x :: y :: rest => hash x y :: nextLevel rest

/-- The number of hashes on level `j` for `n` leaves. -/
def width (n : Nat) : Nat → Nat
  | 0 => n
  | j + 1 => (width n j + 1) / 2

variable [Inhabited D]

/-- The hash at index `i` of level `j`. -/
def node (leaves : List D) : Nat → Nat → D
  | 0, i => leaves.getD i default
  | j + 1, i => hash (node leaves j (2 * i))
      (node leaves j (if 2 * i + 1 < width leaves.length j then 2 * i + 1 else 2 * i))

/-- The root by levels: reduce until one hash is left, at most `fuel` times. -/
def levelRoot : Nat → List D → D
  | _, [x] => x
  | fuel + 1, l@(_ :: _ :: _) => levelRoot fuel (nextLevel hash l)
  | _, _ => default

/-- The other child of the parent of index `i` on level `j`; the hash itself
for the last of an odd level. -/
def sibling (leaves : List D) (j i : Nat) : D :=
  node hash leaves j
    (if i % 2 = 1 then i - 1 else if i + 1 < width leaves.length j then i + 1 else i)

/-- The siblings of the path from leaf `p` up to level `j`, lowest first. -/
def pathSiblings (leaves : List D) (p j : Nat) : List D :=
  (List.range j).map fun k => sibling hash leaves k (p / 2 ^ k)

/-- The levels hash two equal siblings together somewhere: a pair of indices
`2 * i` and `2 * i + 1` of one level, both present. -/
def HasEqualSiblings (leaves : List D) : Prop :=
  ∃ j i, 2 * i + 1 < width leaves.length j ∧
    node hash leaves j (2 * i) = node hash leaves j (2 * i + 1)

/-- Two equal siblings that are both complete subtrees, of `2 ^ j` leaves
each. -/
def HasEqualCompleteSiblings (leaves : List D) : Prop :=
  ∃ j i, (2 * i + 2) * 2 ^ j ≤ leaves.length ∧
    node hash leaves j (2 * i) = node hash leaves j (2 * i + 1)

/-! ## Widths -/

section Width

variable {n : Nat}

theorem width_pos (hn : 0 < n) (j : Nat) : 0 < width n j := by
  induction j with
  | zero => exact hn
  | succ j ih => simp only [width]; omega

@[simp] theorem width_zero (j : Nat) : width 0 j = 0 := by
  induction j with
  | zero => rfl
  | succ j ih => simp [width, ih]

/-- `width n j` is `n / 2 ^ j` rounded up: `n ≤ width n j * 2 ^ j`, and one
hash fewer would not cover `n`. -/
theorem width_bounds (hn : 0 < n) (j : Nat) :
    n ≤ width n j * 2 ^ j ∧ (width n j - 1) * 2 ^ j < n := by
  induction j with
  | zero => simp [width]; omega
  | succ j ih =>
    obtain ⟨hUp, hDown⟩ := ih
    have hPos := width_pos hn j
    have hTwice : width n j ≤ 2 * width n (j + 1) := by simp only [width]; omega
    have hBelow : 2 * (width n (j + 1) - 1) ≤ width n j - 1 := by simp only [width]; omega
    constructor
    · calc n ≤ width n j * 2 ^ j := hUp
        _ ≤ 2 * width n (j + 1) * 2 ^ j := Nat.mul_le_mul_right _ hTwice
        _ = width n (j + 1) * 2 ^ (j + 1) := by rw [Nat.pow_succ]; ring
    · calc (width n (j + 1) - 1) * 2 ^ (j + 1) = 2 * (width n (j + 1) - 1) * 2 ^ j := by
            rw [Nat.pow_succ]; ring
        _ ≤ (width n j - 1) * 2 ^ j := Nat.mul_le_mul_right _ hBelow
        _ < n := hDown

/-- Whole blocks of `2 ^ j` leaves: `width n j` is the quotient when it is
exact, one more otherwise. -/
theorem width_eq_div (hn : 0 < n) (j : Nat) :
    width n j = n / 2 ^ j + if 2 ^ j ∣ n then 0 else 1 := by
  obtain ⟨hUp, hDown⟩ := width_bounds hn j
  have hPow : 0 < 2 ^ j := Nat.two_pow_pos j
  have hQuot : n / 2 ^ j * 2 ^ j ≤ n := Nat.div_mul_le_self n (2 ^ j)
  have hNext : n < (n / 2 ^ j + 1) * 2 ^ j := by
    rw [Nat.add_mul, Nat.one_mul]
    exact Nat.lt_div_mul_add hPow
  have hLe : n / 2 ^ j ≤ width n j :=
    Nat.le_of_mul_le_mul_right (hQuot.trans hUp) hPow
  have hGe : width n j - 1 < n / 2 ^ j + 1 := Nat.lt_of_mul_lt_mul_right (hDown.trans hNext)
  split
  · next hDvd =>
    have hExact : n / 2 ^ j * 2 ^ j = n := Nat.div_mul_cancel hDvd
    have hBelow : width n j - 1 < n / 2 ^ j :=
      Nat.lt_of_mul_lt_mul_right (hDown.trans_le hExact.ge)
    omega
  · next hNotDvd =>
    have hStrict : n / 2 ^ j * 2 ^ j < n := by
      rcases Nat.lt_or_eq_of_le hQuot with hLt | hEq
      · exact hLt
      · exact absurd (Dvd.intro_left _ hEq) hNotDvd
    have hAbove : n / 2 ^ j < width n j := Nat.lt_of_mul_lt_mul_right (hStrict.trans_le hUp)
    omega

/-- A complete block of `2 ^ j` leaves ends inside the level. -/
theorem lt_width_of_mul_le {j k : Nat} (h : (k + 1) * 2 ^ j ≤ n) : k < width n j := by
  have hn : 0 < n := lt_of_lt_of_le (Nat.mul_pos (Nat.succ_pos k) (Nat.two_pow_pos j)) h
  obtain ⟨hUp, -⟩ := width_bounds hn j
  exact Nat.le_of_mul_le_mul_right (h.trans hUp) (Nat.two_pow_pos j)

/-- Every index of the level starts a block below `n`. -/
theorem mul_lt_of_lt_width (hn : 0 < n) {j k : Nat} (h : k < width n j) : k * 2 ^ j < n := by
  obtain ⟨-, hDown⟩ := width_bounds hn j
  calc k * 2 ^ j ≤ (width n j - 1) * 2 ^ j := Nat.mul_le_mul_right _ (by omega)
    _ < n := hDown

/-- The block of `p < n` on level `j` is on the level. -/
theorem div_lt_width {p j : Nat} (hp : p < n) : p / 2 ^ j < width n j := by
  obtain ⟨hUp, -⟩ := width_bounds (Nat.lt_of_le_of_lt (Nat.zero_le p) hp) j
  exact Nat.lt_of_mul_lt_mul_right ((Nat.div_mul_le_self p (2 ^ j)).trans_lt (hp.trans_le hUp))

/-- `width n j` is the only `q` with `n ≤ q * 2 ^ j` and `(q - 1) * 2 ^ j < n`. -/
theorem width_eq_of_bounds (hn : 0 < n) {j q : Nat} (hUp : n ≤ q * 2 ^ j)
    (hDown : (q - 1) * 2 ^ j < n) : width n j = q := by
  obtain ⟨hWUp, hWDown⟩ := width_bounds hn j
  have hPow : 0 < 2 ^ j := Nat.two_pow_pos j
  have hLe : width n j - 1 < q := Nat.lt_of_mul_lt_mul_right (hWDown.trans_le hUp)
  have hGe : q - 1 < width n j := Nat.lt_of_mul_lt_mul_right (hDown.trans_le hWUp)
  omega

/-- Rounding up to a multiple of `2 ^ k` gives at least the multiple of
`2 ^ j` for `j ≤ k`. -/
theorem width_mul_pow_mono {j k : Nat} (hjk : j ≤ k) :
    width n j * 2 ^ j ≤ width n k * 2 ^ k := by
  induction k, hjk using Nat.le_induction with
  | base => exact le_rfl
  | succ k _ ih =>
    have hTwice : width n k ≤ 2 * width n (k + 1) := by simp only [width]; omega
    calc width n j * 2 ^ j ≤ width n k * 2 ^ k := ih
      _ ≤ 2 * width n (k + 1) * 2 ^ k := Nat.mul_le_mul_right _ hTwice
      _ = width n (k + 1) * 2 ^ (k + 1) := by rw [Nat.pow_succ]; ring

/-- `n` rounded up to a multiple of `2 ^ L` that is a multiple of `2 ^ j`, for
`L ≤ j`, is `n` rounded up to a multiple of `2 ^ j`. -/
theorem width_mul_pow_eq_of_dvd (hn : 0 < n) {L j : Nat} (hLj : L ≤ j)
    (hd : 2 ^ j ∣ width n L * 2 ^ L) : width n L * 2 ^ L = width n j * 2 ^ j := by
  obtain ⟨hUp, hDown⟩ := width_bounds hn L
  have hPowLe : 2 ^ L ≤ 2 ^ j := Nat.pow_le_pow_right (by norm_num) hLj
  set X := width n L * 2 ^ L with hXdef
  have hX : X = X / 2 ^ j * 2 ^ j := (Nat.div_mul_cancel hd).symm
  rw [Nat.sub_one_mul, ← hXdef] at hDown
  have hQ : width n j = X / 2 ^ j := by
    apply width_eq_of_bounds hn
    · rw [← hX]; exact hUp
    · rw [Nat.sub_one_mul, ← hX]; omega
  rw [hQ]
  exact hX

/-- Above the first level of width one all widths are one, and the levels
below it shrink: it is at most `n - 1`. -/
theorem width_add_le {L : Nat} (hFirst : ∀ j < L, 1 < width n j) :
    width n L + L ≤ n := by
  induction L with
  | zero => simp [width]
  | succ L ih =>
    have hPrev := ih fun j hj => hFirst j (by omega)
    have hBig := hFirst L (by omega)
    simp only [width]
    omega

end Width

/-! ## Blocks of a counter

The bits of a counter `X` above bit `j` are `X / 2 ^ j`: a block of `2 ^ j`
leaves ends at `X` when `2 ^ j ∣ X`, and it is a left or right child as the
quotient is odd or even. -/

section Blocks

variable {X j : Nat}

theorem div_two_pow_succ (X j : Nat) : X / 2 ^ (j + 1) = X / 2 ^ j / 2 := by
  rw [Nat.pow_succ, Nat.div_div_eq_div_mul]

theorem pred_div_of_dvd {d : Nat} (hd : d ∣ X) (hX : 0 < X) : (X - 1) / d = X / d - 1 := by
  obtain ⟨k, rfl⟩ := hd
  have hd0 : 0 < d := Nat.pos_of_ne_zero (by rintro rfl; simp at hX)
  obtain ⟨k, rfl⟩ : ∃ k', k = k' + 1 :=
    ⟨k - 1, by have : k ≠ 0 := by rintro rfl; simp at hX
               omega⟩
  rw [Nat.mul_succ, show d * k + d - 1 = (d - 1) + d * k by omega,
    Nat.add_mul_div_left _ _ hd0, Nat.div_eq_of_lt (by omega), ← Nat.mul_succ,
    Nat.mul_div_cancel_left _ hd0]
  omega

theorem two_pow_succ_dvd (hd : 2 ^ j ∣ X) (hEven : X / 2 ^ j % 2 = 0) : 2 ^ (j + 1) ∣ X := by
  obtain ⟨q, rfl⟩ := hd
  rw [Nat.mul_div_cancel_left _ (Nat.two_pow_pos j)] at hEven
  obtain ⟨r, rfl⟩ := Nat.dvd_of_mod_eq_zero hEven
  exact ⟨r, by rw [Nat.pow_succ, Nat.mul_assoc]⟩

theorem lt_of_two_pow_dvd {m : Nat} (hd : 2 ^ j ∣ X) (hX : 0 < X) (hlt : X < 2 ^ m) : j < m :=
  (Nat.pow_lt_pow_iff_right (by norm_num)).1 ((Nat.le_of_dvd hX hd).trans_lt hlt)

theorem div_two_pow_eq_of_le {a b k : Nat} (h : a / 2 ^ k = b / 2 ^ k) (hkj : k ≤ j) :
    a / 2 ^ j = b / 2 ^ j := by
  obtain ⟨m, rfl⟩ := Nat.exists_eq_add_of_le hkj
  rw [Nat.pow_add, ← Nat.div_div_eq_div_mul, ← Nat.div_div_eq_div_mul, h]

/-- Above the lowest set bit `t` of `X`, `X - 1` has the bits of `X`. -/
theorem pred_div_two_pow_of_lt {t : Nat} (hd : 2 ^ t ∣ X) (hOdd : X / 2 ^ t % 2 = 1)
    (htj : t < j) : (X - 1) / 2 ^ j = X / 2 ^ j := by
  have hX : 0 < X := Nat.pos_of_ne_zero (by rintro rfl; simp at hOdd)
  have hPred := pred_div_of_dvd hd hX
  have hHalf : (X - 1) / 2 ^ (t + 1) = X / 2 ^ (t + 1) := by
    rw [div_two_pow_succ, div_two_pow_succ, hPred]
    generalize X / 2 ^ t = q at hOdd ⊢
    omega
  exact div_two_pow_eq_of_le hHalf htj

/-- Below bit `j` of `X`, all bits are clear. -/
theorem div_two_pow_even_of_lt {k : Nat} (hd : 2 ^ j ∣ X) (hkj : k < j) :
    X / 2 ^ k % 2 = 0 := by
  have hk : 2 ^ (k + 1) ∣ X := (Nat.pow_dvd_pow 2 hkj).trans hd
  obtain ⟨r, rfl⟩ := hk
  rw [Nat.pow_succ, Nat.mul_assoc, Nat.mul_div_cancel_left _ (Nat.two_pow_pos k)]
  omega

/-- A multiple of `2 ^ j` below `2 ^ m` leaves room for one more block. -/
theorem add_two_pow_le {m : Nat} (hd : 2 ^ j ∣ X) (hlt : X < 2 ^ m) (hjm : j ≤ m) :
    X + 2 ^ j ≤ 2 ^ m := by
  obtain ⟨k, rfl⟩ := hd
  obtain ⟨e, rfl⟩ := Nat.exists_eq_add_of_le hjm
  rw [Nat.pow_add] at hlt ⊢
  have hk : k < 2 ^ e := Nat.lt_of_mul_lt_mul_left hlt
  calc 2 ^ j * k + 2 ^ j = 2 ^ j * (k + 1) := by ring
    _ ≤ 2 ^ j * 2 ^ e := Nat.mul_le_mul_left _ hk

end Blocks

/-! ## The levels are the nodes -/

omit [Inhabited D] in
theorem length_nextLevel (l : List D) : (nextLevel hash l).length = (l.length + 1) / 2 := by
  induction l using nextLevel.induct with
  | case1 => simp [nextLevel]
  | case2 x => simp [nextLevel]
  | case3 x y rest ih => simp only [nextLevel, List.length_cons, ih]; omega

theorem getD_nextLevel (l : List D) (i : Nat) (hi : i < (l.length + 1) / 2) :
    (nextLevel hash l).getD i default =
      hash (l.getD (2 * i) default)
        (l.getD (if 2 * i + 1 < l.length then 2 * i + 1 else 2 * i) default) := by
  induction l using nextLevel.induct generalizing i with
  | case1 => simp at hi
  | case2 x =>
    obtain rfl : i = 0 := by simp at hi; omega
    simp [nextLevel]
  | case3 x y rest ih =>
    cases i with
    | zero => simp [nextLevel]
    | succ i =>
      simp only [List.length_cons] at hi
      have hStep := ih i (by omega)
      have hIndex : 2 * (i + 1) = 2 * i + 1 + 1 := by omega
      simp only [nextLevel, List.getD_cons_succ, List.length_cons, hStep, hIndex]
      by_cases hOdd : 2 * i + 1 < rest.length
      · rw [if_pos hOdd, if_pos (by omega)]
        simp only [List.getD_cons_succ]
      · rw [if_neg hOdd, if_neg (by omega)]
        simp only [List.getD_cons_succ]

omit [Inhabited D] in
theorem length_iterate_nextLevel (leaves : List D) (j : Nat) :
    ((nextLevel hash)^[j] leaves).length = width leaves.length j := by
  induction j with
  | zero => rfl
  | succ j ih => rw [Function.iterate_succ_apply', length_nextLevel, ih]; rfl

/-- Level `j` of the reduction is the `node`s of level `j`. -/
theorem iterate_nextLevel (leaves : List D) (j : Nat) :
    (nextLevel hash)^[j] leaves =
      (List.range (width leaves.length j)).map (node hash leaves j) := by
  apply List.ext_getElem
  · rw [length_iterate_nextLevel, List.length_map, List.length_range]
  intro i hi _
  rw [List.getElem_map, List.getElem_range]
  induction j generalizing i with
  | zero =>
    simp only [Function.iterate_zero, id, node]
    rw [List.getD_eq_getElem]
  | succ j ih =>
    rw [length_iterate_nextLevel] at hi
    have hWidth : width leaves.length (j + 1) = (width leaves.length j + 1) / 2 := rfl
    have hGet := getD_nextLevel hash ((nextLevel hash)^[j] leaves) i
      (by rw [length_iterate_nextLevel, ← hWidth]; exact hi)
    rw [← List.getD_eq_getElem _ default, Function.iterate_succ_apply', hGet,
      length_iterate_nextLevel, node]
    have hLeft : 2 * i < width leaves.length j := by omega
    have hAt : ∀ k, k < width leaves.length j →
        ((nextLevel hash)^[j] leaves).getD k default = node hash leaves j k := by
      intro k hk
      rw [List.getD_eq_getElem _ _ (by rw [length_iterate_nextLevel]; exact hk)]
      exact ih k (by rw [length_iterate_nextLevel]; exact hk) (by simp; exact hk)
    congr 1
    · exact hAt _ hLeft
    · split
      · next hRight => exact hAt _ hRight
      · exact hAt _ hLeft

/-! ## The root -/

theorem levelRoot_singleton (fuel : Nat) (x : D) : levelRoot hash fuel [x] = x := by
  cases fuel <;> rfl

/-- Reducing from level `j`, the root is met `k` levels up, at the first level
of width one. -/
theorem levelRoot_iterate (leaves : List D) (k : Nat) :
    ∀ j fuel, k ≤ fuel → (∀ i < k, 1 < width leaves.length (j + i)) →
      width leaves.length (j + k) = 1 →
        levelRoot hash fuel ((nextLevel hash)^[j] leaves) = node hash leaves (j + k) 0 := by
  induction k with
  | zero =>
    intro j fuel _ _ hOne
    rw [iterate_nextLevel, Nat.add_zero] at *
    rw [hOne]
    exact levelRoot_singleton hash fuel _
  | succ k ih =>
    intro j fuel hFuel hWide hOne
    obtain ⟨fuel, rfl⟩ : ∃ f, fuel = f + 1 := ⟨fuel - 1, by omega⟩
    have hLen : 1 < ((nextLevel hash)^[j] leaves).length := by
      rw [length_iterate_nextLevel]
      simpa using hWide 0 (by omega)
    obtain ⟨a, b, rest, hLevel⟩ : ∃ a b rest, (nextLevel hash)^[j] leaves = a :: b :: rest := by
      match hMatch : (nextLevel hash)^[j] leaves with
      | a :: b :: rest => exact ⟨a, b, rest, rfl⟩
      | [] => simp [hMatch] at hLen
      | [_] => simp [hMatch] at hLen
    have hStep : levelRoot hash (fuel + 1) ((nextLevel hash)^[j] leaves) =
        levelRoot hash fuel ((nextLevel hash)^[j + 1] leaves) := by
      rw [Function.iterate_succ_apply', hLevel]
      rfl
    rw [hStep, ih (j + 1) fuel (by omega) (fun i hi => by
      rw [show j + 1 + i = j + (i + 1) by omega]; exact hWide (i + 1) (by omega))
      (by rw [show j + 1 + k = j + (k + 1) by omega]; exact hOne)]
    rw [show j + 1 + k = j + (k + 1) by omega]

/-- The root by levels is the node at index zero of the first level of width
one, given fuel for as many reductions. -/
theorem levelRoot_eq_node (leaves : List D) {L fuel : Nat}
    (hOne : width leaves.length L = 1) (hFirst : ∀ j < L, 1 < width leaves.length j)
    (hFuel : L ≤ fuel) : levelRoot hash fuel leaves = node hash leaves L 0 := by
  have hRoot := levelRoot_iterate hash leaves L 0 fuel hFuel
    (fun i hi => by rw [Nat.zero_add]; exact hFirst i hi) (by rw [Nat.zero_add]; exact hOne)
  rw [Nat.zero_add] at hRoot
  exact hRoot

/-! ## One level up -/

section Parent

variable {leaves : List D} {j i : Nat}

theorem node_succ_of_lt (h : 2 * i + 1 < width leaves.length j) :
    node hash leaves (j + 1) i =
      hash (node hash leaves j (2 * i)) (node hash leaves j (2 * i + 1)) := by
  rw [node, if_pos h]

/-- The last hash of an odd level is paired with itself. -/
theorem node_succ_of_le (h : width leaves.length j ≤ 2 * i + 1) :
    node hash leaves (j + 1) i =
      hash (node hash leaves j (2 * i)) (node hash leaves j (2 * i)) := by
  rw [node, if_neg (by omega)]

/-- The parent of index `i` hashes it with its sibling, the sibling on the
left when `i` is odd. -/
theorem node_succ_half (hi : i < width leaves.length j) :
    node hash leaves (j + 1) (i / 2) =
      if i % 2 = 1 then hash (sibling hash leaves j i) (node hash leaves j i)
      else hash (node hash leaves j i) (sibling hash leaves j i) := by
  unfold sibling
  by_cases hOdd : i % 2 = 1
  · have hPair : 2 * (i / 2) + 1 = i := by omega
    rw [if_pos hOdd, if_pos hOdd, node_succ_of_lt hash (by omega), hPair,
      show 2 * (i / 2) = i - 1 by omega]
  · have hPair : 2 * (i / 2) = i := by omega
    rw [if_neg hOdd, if_neg hOdd, node, hPair]

/-- The block ending at an even quotient `q` of the level pairs the two hashes
before it. -/
theorem node_succ_pred {q : Nat} (hEven : q % 2 = 0) (hPos : 0 < q)
    (hq : q ≤ width leaves.length j) :
    node hash leaves (j + 1) (q / 2 - 1) =
      hash (node hash leaves j (q - 2)) (node hash leaves j (q - 1)) := by
  rw [node_succ_of_lt hash (by omega), show 2 * (q / 2 - 1) = q - 2 by omega,
    show q - 2 + 1 = q - 1 by omega]

/-- The last hash of an odd level pairs with itself into the last of the next. -/
theorem node_succ_last_of_odd (hOdd : width leaves.length j % 2 = 1) :
    node hash leaves (j + 1) (width leaves.length (j + 1) - 1) =
      hash (node hash leaves j (width leaves.length j - 1))
        (node hash leaves j (width leaves.length j - 1)) := by
  have hNext : width leaves.length (j + 1) = (width leaves.length j + 1) / 2 := rfl
  rw [node_succ_of_le hash (by omega), hNext,
    show 2 * ((width leaves.length j + 1) / 2 - 1) = width leaves.length j - 1 by omega]

theorem sibling_of_odd (hOdd : i % 2 = 1) :
    sibling hash leaves j i = node hash leaves j (i - 1) := by
  rw [sibling, if_pos hOdd]

theorem sibling_of_even (hEven : i % 2 = 0) (hi : i + 1 < width leaves.length j) :
    sibling hash leaves j i = node hash leaves j (i + 1) := by
  rw [sibling, if_neg (by omega), if_pos hi]

/-- The last hash of an odd level is its own sibling. -/
theorem sibling_of_last (hEven : i % 2 = 0) (hi : width leaves.length j ≤ i + 1) :
    sibling hash leaves j i = node hash leaves j i := by
  rw [sibling, if_neg (by omega), if_neg (by omega)]

theorem pathSiblings_succ (p : Nat) :
    pathSiblings hash leaves p (j + 1) =
      pathSiblings hash leaves p j ++ [sibling hash leaves j (p / 2 ^ j)] := by
  rw [pathSiblings, List.range_succ, List.map_append, List.map_singleton]
  rfl

end Parent

/-! ## Equal siblings under an injective hash -/

section Injective

variable {hash}

theorem hasEqualSiblings_of_complete {leaves : List D}
    (h : HasEqualCompleteSiblings hash leaves) : HasEqualSiblings hash leaves := by
  obtain ⟨j, i, hBlock, hEq⟩ := h
  exact ⟨j, i, lt_width_of_mul_le hBlock, hEq⟩

variable (hInj : ∀ a b c d, hash a b = hash c d → a = c ∧ b = d)
include hInj

/-- A complete subtree equal to the last, incomplete one of its level holds
two equal complete siblings: the incomplete one pairs a hash with itself
somewhere, and injectivity carries that down into the complete one. -/
theorem hasEqualCompleteSiblings_of_eq_last {leaves : List D} (j : Nat) :
    ∀ a b, (a + 1) * 2 ^ j ≤ leaves.length → leaves.length < (b + 1) * 2 ^ j →
      b < width leaves.length j → node hash leaves j a = node hash leaves j b →
        HasEqualCompleteSiblings hash leaves := by
  induction j with
  | zero =>
    intro a b _ hOut hIn _
    simp only [width, pow_zero, Nat.mul_one] at hOut hIn
    omega
  | succ j ih =>
    intro a b hA hB hIn hEq
    have hA' : (2 * a + 2) * 2 ^ j ≤ leaves.length := by
      rw [show (2 * a + 2) * 2 ^ j = (a + 1) * 2 ^ (j + 1) by rw [Nat.pow_succ]; ring]
      exact hA
    have hAPair : 2 * a + 1 < width leaves.length j := lt_width_of_mul_le hA'
    rw [node_succ_of_lt hash hAPair, node] at hEq
    obtain ⟨hLeft, hRight⟩ := hInj _ _ _ _ hEq
    split at hRight
    · next hBPair =>
      refine ih (2 * a + 1) (2 * b + 1) (by omega) ?_ hBPair hRight
      rw [show (2 * b + 1 + 1) * 2 ^ j = (b + 1) * 2 ^ (j + 1) by rw [Nat.pow_succ]; ring]
      exact hB
    · -- `b` pairs its left child with itself: the children of `a` are equal.
      exact ⟨j, a, hA', hLeft.trans hRight.symm⟩

/-- For an injective hash, equal siblings anywhere force equal complete
siblings. -/
theorem hasEqualCompleteSiblings_iff {leaves : List D} :
    HasEqualCompleteSiblings hash leaves ↔ HasEqualSiblings hash leaves := by
  refine ⟨hasEqualSiblings_of_complete, ?_⟩
  rintro ⟨j, i, hPair, hEq⟩
  by_cases hBlock : (2 * i + 2) * 2 ^ j ≤ leaves.length
  · exact ⟨j, i, hBlock, hEq⟩
  have hPos : 0 < leaves.length :=
    Nat.pos_of_ne_zero fun h => by rw [h, width_zero] at hPair; omega
  have hLeft : (2 * i + 1) * 2 ^ j < leaves.length := mul_lt_of_lt_width hPos hPair
  exact hasEqualCompleteSiblings_of_eq_last hInj j (2 * i) (2 * i + 1) hLeft.le
    (by rw [show 2 * i + 1 + 1 = 2 * i + 2 by omega]; omega) hPair hEq

end Injective

end FairCoin.Verified.MerkleTree
