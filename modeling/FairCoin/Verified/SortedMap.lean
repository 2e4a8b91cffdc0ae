import Mathlib

/-!
# Ordered finite maps as sorted association lists

An ordered tree map (a red-black tree, say) is observed through its entries
in increasing key order: iteration, `begin()`, `size()`, lookup. This module
represents such a map by exactly that list, with strict sortedness as a field
of the structure, so that every map that can be built has distinct keys and a
well-defined first entry.

The operations are those a tree map offers: lookup (`find?`, and `findD` for
an `operator[]` read that defaults), membership (`contains`, a `count`),
assignment (`insert`, which replaces) and insertion that keeps an existing
entry (`insertNew`). Each comes with the lemmas that later proofs cite
instead of unfolding it.

## Main results

* `keys_nodup` — the keys of a sorted map are distinct.
* `find?_eq_some_iff` — lookup finds exactly the entries of the list.
* `find?_insert` — assignment overwrites one key and leaves the others.
* `contains_insertNew`, `find?_insertNew_of_contains` — `insertNew` adds a
  key and never overwrites one.
-/

namespace FairCoin.Verified

/-- A finite map as its entries in strictly increasing key order. -/
structure SortedMap (κ : Type) (ν : Type) [LinearOrder κ] where
  entries : List (κ × ν)
  sorted : entries.Pairwise fun a b => a.1 < b.1

namespace SortedMap

variable {κ ν : Type} [LinearOrder κ]

/-- The empty map. -/
def empty : SortedMap κ ν := ⟨[], List.Pairwise.nil⟩

instance instInhabitedSortedMap : Inhabited (SortedMap κ ν) := ⟨empty⟩

/-- A map is its entries. -/
@[ext] theorem ext {m m' : SortedMap κ ν} (h : m.entries = m'.entries) : m = m' := by
  cases m
  cases m'
  simp only at h
  subst h
  rfl

instance instDecidableEqSortedMap [DecidableEq κ] [DecidableEq ν] : DecidableEq (SortedMap κ ν) :=
  fun m m' => decidable_of_iff (m.entries = m'.entries) ⟨ext, fun h => h ▸ rfl⟩

/-- The keys, in iteration order. -/
def keys (m : SortedMap κ ν) : List κ := m.entries.map Prod.fst

/-- `size()`. -/
def size (m : SortedMap κ ν) : Nat := m.entries.length

/-- `count(k) != 0`. -/
def contains (m : SortedMap κ ν) (k : κ) : Bool := m.entries.any fun e => e.1 == k

/-- `find(k)`. -/
def find? (m : SortedMap κ ν) (k : κ) : Option ν :=
  (m.entries.find? fun e => e.1 == k).map Prod.snd

/-- A read through `operator[]`, which yields the default for a missing key. -/
def findD (m : SortedMap κ ν) (k : κ) (d : ν) : ν := (m.find? k).getD d

/-! ## Keys are distinct -/

theorem keys_pairwise (m : SortedMap κ ν) : m.keys.Pairwise fun a b => a < b := by
  unfold keys
  exact List.pairwise_map.mpr m.sorted

theorem keys_nodup (m : SortedMap κ ν) : m.keys.Nodup :=
  m.keys_pairwise.imp ne_of_lt

/-! ## Lookup and membership -/

theorem contains_iff_mem_keys (m : SortedMap κ ν) (k : κ) : m.contains k = true ↔ k ∈ m.keys := by
  simp [contains, keys]

theorem find?_eq_some_iff (m : SortedMap κ ν) (k : κ) (v : ν) :
    m.find? k = some v ↔ (k, v) ∈ m.entries := by
  have hNodup : (m.entries.map Prod.fst).Nodup := m.keys_nodup
  constructor
  · intro h
    simp only [find?, Option.map_eq_some_iff] at h
    obtain ⟨e, hFind, rfl⟩ := h
    have hKey : e.1 = k := by simpa using List.find?_some hFind
    have hMem := List.mem_of_find?_eq_some hFind
    rw [← hKey]
    exact hMem
  · intro hMem
    cases hFind : m.entries.find? (fun e => e.1 == k) with
    | none =>
      have := List.find?_eq_none.mp hFind (k, v) hMem
      simp at this
    | some e =>
      have hKey : e.1 = k := by simpa using List.find?_some hFind
      have heMem := List.mem_of_find?_eq_some hFind
      have hSame : e = (k, v) := by
        have hInj := List.inj_on_of_nodup_map hNodup heMem hMem
        exact hInj hKey
      simp [find?, hFind, hSame]

theorem contains_iff_find?_isSome (m : SortedMap κ ν) (k : κ) :
    m.contains k = true ↔ (m.find? k).isSome := by
  simp [contains, find?, List.find?_isSome]

/-- An iteration that keeps the entries whose key passes `p` meets exactly
one entry when `k` is the only key of the map that passes. -/
theorem filter_entries_eq_singleton (m : SortedMap κ ν) {p : κ → Bool} {k : κ} {v : ν}
    (hk : m.find? k = some v) (hp : p k = true) (hOnly : ∀ k' ∈ m.keys, p k' = true → k' = k) :
    m.entries.filter (fun e => p e.1) = [(k, v)] := by
  have hSorted : (m.entries.filter fun e => p e.1).Pairwise (fun a b => a.1 < b.1) :=
    m.sorted.filter _
  have hKeys : ∀ e ∈ m.entries.filter (fun e => p e.1), e.1 = k := by
    intro e he
    rw [List.mem_filter] at he
    exact hOnly e.1 (List.mem_map_of_mem he.1) he.2
  have hMem : (k, v) ∈ m.entries.filter (fun e => p e.1) :=
    List.mem_filter.mpr ⟨(m.find?_eq_some_iff k v).mp hk, hp⟩
  generalize m.entries.filter (fun e => p e.1) = l at hSorted hKeys hMem
  rcases l with _ | ⟨e₁, _ | ⟨e₂, rest⟩⟩
  · simp at hMem
  · simp only [List.mem_singleton] at hMem
    rw [hMem]
  · -- two kept entries would share the key `k` and yet be strictly ordered
    have hLt : e₁.1 < e₂.1 := List.rel_of_pairwise_cons hSorted (by simp)
    have h₁ := hKeys e₁ (by simp)
    have h₂ := hKeys e₂ (by simp)
    rw [h₁, h₂] at hLt
    exact absurd hLt (lt_irrefl k)

/-! ## Assignment -/

/-- Put `(k, v)` at its place in a sorted list, replacing an entry for `k`. -/
def insertList (k : κ) (v : ν) : List (κ × ν) → List (κ × ν)
  | [] => [(k, v)]
  | e :: es =>
    if k < e.1 then (k, v) :: e :: es
    else if k = e.1 then (k, v) :: es
    else e :: insertList k v es

theorem mem_insertList {k : κ} {v : ν} {es : List (κ × ν)} {e : κ × ν}
    (h : e ∈ insertList k v es) : e = (k, v) ∨ e ∈ es := by
  induction es with
  | nil => simpa [insertList] using h
  | cons x xs ih =>
    simp only [insertList] at h
    split_ifs at h with hLt hEq
    · simpa using h
    · simp only [List.mem_cons] at h
      rcases h with h | h
      · exact Or.inl h
      · exact Or.inr (List.mem_cons_of_mem x h)
    · simp only [List.mem_cons] at h
      rcases h with h | h
      · exact Or.inr (h ▸ List.mem_cons_self)
      · rcases ih h with h' | h'
        · exact Or.inl h'
        · exact Or.inr (List.mem_cons_of_mem x h')

theorem insertList_sorted (k : κ) (v : ν) {es : List (κ × ν)}
    (h : es.Pairwise fun a b => a.1 < b.1) : (insertList k v es).Pairwise fun a b => a.1 < b.1 := by
  induction es with
  | nil => simp [insertList]
  | cons x xs ih =>
    have hHead : ∀ y ∈ xs, x.1 < y.1 := (List.pairwise_cons.mp h).1
    have hTail := (List.pairwise_cons.mp h).2
    simp only [insertList]
    split_ifs with hLt hEq
    · -- new first entry, below `x` and hence below all of `xs`
      refine List.Pairwise.cons ?_ h
      intro y hy
      rcases List.mem_cons.mp hy with rfl | hy
      · exact hLt
      · exact lt_trans hLt (hHead y hy)
    · -- replace `x`
      refine List.Pairwise.cons ?_ hTail
      intro y hy
      exact hEq ▸ hHead y hy
    · -- `x` stays first: everything inserted behind it is above it
      have hGt : x.1 < k := lt_of_le_of_ne (not_lt.mp hLt) (Ne.symm hEq)
      refine List.Pairwise.cons ?_ (ih hTail)
      intro y hy
      rcases mem_insertList hy with rfl | hy
      · exact hGt
      · exact hHead y hy

/-- `m[k] = v`. -/
def insert (m : SortedMap κ ν) (k : κ) (v : ν) : SortedMap κ ν :=
  ⟨insertList k v m.entries, insertList_sorted k v m.sorted⟩

theorem mem_insertList_self (k : κ) (v : ν) (es : List (κ × ν)) : (k, v) ∈ insertList k v es := by
  induction es with
  | nil => simp [insertList]
  | cons x xs ih =>
    simp only [insertList]
    split_ifs <;> simp [ih]

theorem mem_insertList_of_ne {k k' : κ} {v w : ν} {es : List (κ × ν)}
    (h : (k', w) ∈ es) (hk : k' ≠ k) : (k', w) ∈ insertList k v es := by
  induction es with
  | nil => simp at h
  | cons x xs ih =>
    simp only [insertList]
    rcases List.mem_cons.mp h with rfl | h
    · split_ifs with hLt hEq
      · simp
      · exact absurd hEq.symm hk
      · simp
    · split_ifs <;> simp [h, ih h]

theorem find?_insert (m : SortedMap κ ν) (k : κ) (v : ν) (k' : κ) :
    (m.insert k v).find? k' = if k' = k then some v else m.find? k' := by
  split_ifs with hk
  · subst hk
    exact ((m.insert k' v).find?_eq_some_iff k' v).mpr (mem_insertList_self k' v m.entries)
  · cases hOld : m.find? k' with
    | some w =>
      have hMem := (m.find?_eq_some_iff k' w).mp hOld
      exact ((m.insert k v).find?_eq_some_iff k' w).mpr (mem_insertList_of_ne hMem hk)
    | none =>
      cases hNew : (m.insert k v).find? k' with
      | none => rfl
      | some w =>
        have hMem := ((m.insert k v).find?_eq_some_iff k' w).mp hNew
        rcases mem_insertList hMem with hEq | hMem
        · exact absurd (Prod.mk.inj hEq).1 hk
        · rw [(m.find?_eq_some_iff k' w).mpr hMem] at hOld
          cases hOld

@[simp] theorem find?_insert_self (m : SortedMap κ ν) (k : κ) (v : ν) :
    (m.insert k v).find? k = some v := by
  simp [find?_insert]

theorem find?_insert_of_ne (m : SortedMap κ ν) {k k' : κ} (v : ν) (hk : k' ≠ k) :
    (m.insert k v).find? k' = m.find? k' := by
  simp [find?_insert, hk]

theorem contains_insert (m : SortedMap κ ν) (k : κ) (v : ν) (k' : κ) :
    (m.insert k v).contains k' = (k' == k || m.contains k') := by
  apply Bool.eq_iff_iff.mpr
  simp only [contains_iff_find?_isSome, find?_insert, Bool.or_eq_true, beq_iff_eq]
  by_cases hk : k' = k <;> simp [hk]

theorem mem_keys_insert (m : SortedMap κ ν) (k : κ) (v : ν) (k' : κ) :
    k' ∈ (m.insert k v).keys ↔ k' = k ∨ k' ∈ m.keys := by
  rw [← contains_iff_mem_keys, ← contains_iff_mem_keys, contains_insert]
  simp

/-- `std::map::insert`: add `(k, v)` unless `k` is present. -/
def insertNew (m : SortedMap κ ν) (k : κ) (v : ν) : SortedMap κ ν :=
  if m.contains k then m else m.insert k v

theorem contains_insertNew (m : SortedMap κ ν) (k : κ) (v : ν) (k' : κ) :
    (m.insertNew k v).contains k' = (k' == k || m.contains k') := by
  unfold insertNew
  split_ifs with hIn
  · by_cases hk : k' = k
    · subst hk
      simp [hIn]
    · simp [hk]
  · exact contains_insert m k v k'

theorem find?_insertNew_of_contains (m : SortedMap κ ν) {k : κ} (v : ν) (k' : κ)
    (h : m.contains k' = true) : (m.insertNew k v).find? k' = m.find? k' := by
  unfold insertNew
  split_ifs with hIn
  · rfl
  · -- `k` was absent and `k'` present, so they differ
    have hk : k' ≠ k := by
      rintro rfl
      exact hIn h
    exact find?_insert_of_ne m v hk

/-! ## Empty maps -/

theorem find?_eq_none_of_entries_eq_nil {m : SortedMap κ ν} (h : m.entries = []) (k : κ) :
    m.find? k = none := by
  simp [find?, h]

@[simp] theorem find?_empty (k : κ) : (empty : SortedMap κ ν).find? k = none := rfl

theorem entries_ne_nil_of_find? {m : SortedMap κ ν} {k : κ} {v : ν} (h : m.find? k = some v) :
    m.entries ≠ [] := by
  intro hNil
  rw [find?_eq_none_of_entries_eq_nil hNil] at h
  cases h

/-! ## Erasing while iterating, and updating every value -/

/-- The entries that pass `p`, as a loop `m.erase(it++)` over the rest
leaves them. -/
def filter (m : SortedMap κ ν) (p : κ → ν → Bool) : SortedMap κ ν :=
  ⟨m.entries.filter fun e => p e.1 e.2, m.sorted.filter _⟩

/-- Every value updated in place, the keys kept. -/
def mapVal {ν' : Type} (m : SortedMap κ ν) (f : κ → ν → ν') : SortedMap κ ν' :=
  ⟨m.entries.map fun e => (e.1, f e.1 e.2), List.pairwise_map.mpr (m.sorted.imp id)⟩

/-- `erase(k)`. -/
def erase (m : SortedMap κ ν) (k : κ) : SortedMap κ ν := m.filter fun k' _ => k' != k

theorem mem_entries_filter {m : SortedMap κ ν} {p : κ → ν → Bool} {k : κ} {v : ν} :
    (k, v) ∈ (m.filter p).entries ↔ (k, v) ∈ m.entries ∧ p k v = true := by
  simp [filter]

theorem mem_entries_mapVal {ν' : Type} {m : SortedMap κ ν} {f : κ → ν → ν'} {k : κ} {w : ν'} :
    (k, w) ∈ (m.mapVal f).entries ↔ ∃ v, (k, v) ∈ m.entries ∧ f k v = w := by
  simp only [mapVal, List.mem_map, Prod.mk.injEq]
  constructor
  · rintro ⟨⟨k', v⟩, hMem, rfl, rfl⟩
    exact ⟨v, hMem, rfl⟩
  · rintro ⟨v, hMem, rfl⟩
    exact ⟨(k, v), hMem, rfl, rfl⟩

theorem find?_filter (m : SortedMap κ ν) (p : κ → ν → Bool) (k : κ) :
    (m.filter p).find? k = (m.find? k).filter (p k) := by
  apply Option.ext
  intro v
  rw [find?_eq_some_iff, mem_entries_filter, Option.filter_eq_some_iff, find?_eq_some_iff]

theorem find?_erase (m : SortedMap κ ν) (k k' : κ) :
    (m.erase k).find? k' = if k' = k then none else m.find? k' := by
  unfold erase
  rw [find?_filter]
  by_cases hk : k' = k
  · subst hk
    cases m.find? k' <;> simp
  · cases m.find? k' <;> simp [hk]

theorem find?_mapVal {ν' : Type} (m : SortedMap κ ν) (f : κ → ν → ν') (k : κ) :
    (m.mapVal f).find? k = (m.find? k).map (f k) := by
  apply Option.ext
  intro w
  rw [find?_eq_some_iff, mem_entries_mapVal, Option.map_eq_some_iff]
  simp only [find?_eq_some_iff]

/-! ## Sums over the values -/

/-- The sum of `f` over the values, as a counter kept beside the map tracks
it. -/
def sumBy (m : SortedMap κ ν) (f : ν → Nat) : Nat := (m.entries.map fun e => f e.2).sum

@[simp] theorem sumBy_empty (f : ν → Nat) : (empty : SortedMap κ ν).sumBy f = 0 := rfl

/-- The lookup of a key below every key of a sorted list fails. -/
theorem find?_eq_none_of_lt {k : κ} {es : List (κ × ν)} (h : ∀ e ∈ es, k < e.1) :
    es.find? (fun e => e.1 == k) = none := by
  rw [List.find?_eq_none]
  intro e he
  simpa using (h e he).ne'

theorem sum_insertList (k : κ) (v : ν) (f : ν → Nat) {es : List (κ × ν)}
    (h : es.Pairwise fun a b => a.1 < b.1) :
    ((insertList k v es).map fun e => f e.2).sum +
        (((es.find? fun e => e.1 == k).map Prod.snd).map f).getD 0 =
      (es.map fun e => f e.2).sum + f v := by
  induction es with
  | nil => simp [insertList]
  | cons x xs ih =>
    have hHead : ∀ y ∈ xs, x.1 < y.1 := (List.pairwise_cons.mp h).1
    simp only [insertList]
    split_ifs with hLt hEq
    · -- `k` goes first and was nowhere in the list
      have hNone : (x :: xs).find? (fun e => e.1 == k) = none := by
        apply find?_eq_none_of_lt
        intro y hy
        rcases List.mem_cons.mp hy with rfl | hy
        · exact hLt
        · exact lt_trans hLt (hHead y hy)
      simp only [hNone, List.map_cons, List.sum_cons, Option.map_none, Option.getD_none]
      omega
    · -- `x` is replaced
      subst hEq
      simp only [List.find?_cons, beq_self_eq_true, List.map_cons, List.sum_cons, Option.map_some,
        Option.getD_some]
      omega
    · have hNe : (x.1 == k) = false := by
        simpa using Ne.symm (show k ≠ x.1 from hEq)
      have hIH := ih (List.pairwise_cons.mp h).2
      simp only [List.find?_cons, hNe, List.map_cons, List.sum_cons]
      omega

/-- Assignment replaces the old value's share of the sum by the new one's. -/
theorem sumBy_insert (m : SortedMap κ ν) (k : κ) (v : ν) (f : ν → Nat) :
    (m.insert k v).sumBy f + ((m.find? k).map f).getD 0 = m.sumBy f + f v :=
  sum_insertList k v f m.sorted

theorem sum_filter_ne (k : κ) (f : ν → Nat) {es : List (κ × ν)}
    (h : es.Pairwise fun a b => a.1 < b.1) :
    ((es.filter fun e => e.1 != k).map fun e => f e.2).sum +
        (((es.find? fun e => e.1 == k).map Prod.snd).map f).getD 0 =
      (es.map fun e => f e.2).sum := by
  induction es with
  | nil => simp
  | cons x xs ih =>
    have hIH := ih (List.pairwise_cons.mp h).2
    by_cases hx : x.1 = k
    · -- the erased entry; no later key is `k`
      have hNone : xs.find? (fun e => e.1 == k) = none :=
        find?_eq_none_of_lt fun y hy => hx ▸ (List.pairwise_cons.mp h).1 y hy
      simp only [hNone, Option.map_none, Option.getD_none] at hIH
      simp only [List.filter_cons, hx, bne_self_eq_false, List.find?_cons, beq_self_eq_true,
        Option.map_some, Option.getD_some, List.map_cons, List.sum_cons]
      simp only [Bool.false_eq_true, if_false]
      omega
    · have hNe : (x.1 == k) = false := by simpa using hx
      have hKeep : (x.1 != k) = true := by simpa using hx
      simp only [List.filter_cons, hKeep, if_true, List.find?_cons, hNe, List.map_cons,
        List.sum_cons]
      omega

/-- Erasing takes the erased value's share off the sum. -/
theorem sumBy_erase (m : SortedMap κ ν) (k : κ) (f : ν → Nat) :
    (m.erase k).sumBy f + ((m.find? k).map f).getD 0 = m.sumBy f :=
  sum_filter_ne k f m.sorted

/-- One value's share is at most the sum. -/
theorem le_sumBy_of_find? {m : SortedMap κ ν} {k : κ} {v : ν} (h : m.find? k = some v)
    (f : ν → Nat) : f v ≤ m.sumBy f := by
  have hErase := m.sumBy_erase k f
  rw [h] at hErase
  simp only [Option.map_some, Option.getD_some] at hErase
  omega

/-- A sum over the values is the sum over any list that holds each key once,
in whatever order. -/
theorem sum_map_eq_sumBy {m : SortedMap κ ν} {l : List κ} (hl : l.Nodup)
    (hMem : ∀ k, k ∈ l ↔ (m.find? k).isSome) (f : ν → Nat) :
    (l.map fun k => ((m.find? k).map f).getD 0).sum = m.sumBy f := by
  have hPerm : l.Perm m.keys := by
    rw [List.perm_ext_iff_of_nodup hl m.keys_nodup]
    intro k
    rw [hMem, ← contains_iff_find?_isSome, contains_iff_mem_keys]
  rw [(hPerm.map _).sum_eq, sumBy, keys, List.map_map]
  congr 1
  apply List.map_congr_left
  intro e he
  have hFind : m.find? e.1 = some e.2 := (m.find?_eq_some_iff e.1 e.2).mpr he
  simp [hFind]

/-! ## Writing a map's entries one key at a time

A loop that walks a map and writes each entry somewhere else, where a write
changes what is read at its own key only, ends with every key read as its
own write left it and every other key as before. The step hypothesis says
what one write keeps (`I`) and establishes (`R`) from what it reads
(`Good`). -/

section FoldWrite

variable {σ α : Type} (read : σ → κ → α) (write : σ → κ → ν → σ) (I : σ → Prop)
  (Good R : α → ν → Prop)

theorem foldl_write_list
    (hFrame : ∀ s k v k', k' ≠ k → read (write s k v) k' = read s k')
    (hStep : ∀ s k v, I s → Good (read s k) v → I (write s k v) ∧ R (read (write s k v) k) v) :
    ∀ (es : List (κ × ν)) (s : σ), es.Pairwise (fun a b => a.1 < b.1) → I s →
      (∀ e ∈ es, Good (read s e.1) e.2) →
      I (es.foldl (fun s e => write s e.1 e.2) s) ∧
        (∀ e ∈ es, R (read (es.foldl (fun s e => write s e.1 e.2) s) e.1) e.2) ∧
        ∀ k, (∀ e ∈ es, e.1 ≠ k) → read (es.foldl (fun s e => write s e.1 e.2) s) k = read s k := by
  intro es
  induction es with
  | nil => simp
  | cons e es ih =>
    intro s hSorted hI hGood
    have hAbove : ∀ e' ∈ es, e.1 < e'.1 := (List.pairwise_cons.mp hSorted).1
    obtain ⟨hI₁, hR₁⟩ := hStep s e.1 e.2 hI (hGood e List.mem_cons_self)
    have hGood₁ : ∀ e' ∈ es, Good (read (write s e.1 e.2) e'.1) e'.2 := by
      intro e' he'
      rw [hFrame s e.1 e.2 e'.1 (hAbove e' he').ne']
      exact hGood e' (List.mem_cons_of_mem e he')
    obtain ⟨hIEnd, hREnd, hFrameEnd⟩ := ih (write s e.1 e.2) (List.pairwise_cons.mp hSorted).2 hI₁ hGood₁
    refine ⟨hIEnd, ?_, ?_⟩
    · intro e' he'
      rcases List.mem_cons.mp he' with rfl | he'
      · rw [List.foldl_cons, hFrameEnd e'.1 fun e'' he'' => (hAbove e'' he'').ne']
        exact hR₁
      · exact hREnd e' he'
    · intro k hk
      rw [List.foldl_cons, hFrameEnd k fun e' he' => hk e' (List.mem_cons_of_mem e he')]
      exact hFrame s e.1 e.2 k (hk e List.mem_cons_self).symm

/-- The loop over the entries of a map: a key of the map is read as its
write left it, any other key as before. -/
theorem foldl_write
    (hFrame : ∀ s k v k', k' ≠ k → read (write s k v) k' = read s k')
    (hStep : ∀ s k v, I s → Good (read s k) v → I (write s k v) ∧ R (read (write s k v) k) v)
    (m : SortedMap κ ν) (s : σ) (hI : I s) (hGood : ∀ k v, m.find? k = some v → Good (read s k) v) :
    I (m.entries.foldl (fun s e => write s e.1 e.2) s) ∧
      ∀ k, (∀ v, m.find? k = some v → R (read (m.entries.foldl (fun s e => write s e.1 e.2) s) k) v) ∧
        (m.find? k = none → read (m.entries.foldl (fun s e => write s e.1 e.2) s) k = read s k) := by
  have hMem : ∀ e ∈ m.entries, m.find? e.1 = some e.2 := fun e he =>
    (m.find?_eq_some_iff e.1 e.2).mpr he
  obtain ⟨hIEnd, hREnd, hFrameEnd⟩ := foldl_write_list read write I Good R hFrame hStep m.entries s
    m.sorted hI fun e he => hGood e.1 e.2 (hMem e he)
  refine ⟨hIEnd, fun k => ⟨fun v hv => hREnd (k, v) ((m.find?_eq_some_iff k v).mp hv), ?_⟩⟩
  intro hNone
  apply hFrameEnd k
  intro e he hEq
  rw [← hEq, hMem e he] at hNone
  cases hNone

end FoldWrite

end SortedMap

/-! ## Machine-word keys -/

/-- `uint32_t` keys, ordered as unsigned numbers, as `std::less<uint32_t>` orders them. -/
instance instLinearOrderUInt32 : LinearOrder UInt32 where
  le := (· ≤ ·)
  lt := (· < ·)
  le_refl a := UInt32.le_refl a
  le_trans _ _ _ := UInt32.le_trans
  lt_iff_le_not_ge a b := by
    simp only [UInt32.lt_iff_toNat_lt, UInt32.le_iff_toNat_le]
    omega
  le_antisymm _ _ h₁ h₂ := UInt32.le_antisymm h₁ h₂
  le_total a b := UInt32.le_total a b
  toDecidableLE := inferInstance
  toDecidableEq := inferInstance
  toDecidableLT := inferInstance
  min_def _ _ := rfl
  max_def _ _ := rfl
  compare_eq_compareOfLessAndEq _ _ := rfl

/-- Bytes, ordered as unsigned numbers, as `memcmp` compares them. -/
instance instLinearOrderUInt8 : LinearOrder UInt8 where
  le := (· ≤ ·)
  lt := (· < ·)
  le_refl a := UInt8.le_refl a
  le_trans _ _ _ := UInt8.le_trans
  lt_iff_le_not_ge a b := by
    simp only [UInt8.lt_iff_toNat_lt, UInt8.le_iff_toNat_le]
    omega
  le_antisymm _ _ h₁ h₂ := UInt8.le_antisymm h₁ h₂
  le_total a b := UInt8.le_total a b
  toDecidableLE := inferInstance
  toDecidableEq := inferInstance
  toDecidableLT := inferInstance
  min_def _ _ := rfl
  max_def _ _ := rfl
  compare_eq_compareOfLessAndEq _ _ := rfl

/-- Bit-vector keys (hashes) ordered by value. -/
instance instLinearOrderBitVec (w : Nat) : LinearOrder (BitVec w) where
  le := (· ≤ ·)
  lt := (· < ·)
  le_refl a := BitVec.le_refl a
  le_trans _ _ _ := BitVec.le_trans
  lt_iff_le_not_ge a b := by
    simp only [BitVec.lt_def, BitVec.le_def]
    omega
  le_antisymm _ _ h₁ h₂ := BitVec.le_antisymm h₁ h₂
  le_total a b := BitVec.le_total a b
  toDecidableLE := inferInstance
  toDecidableEq := inferInstance
  toDecidableLT := inferInstance
  min_def _ _ := rfl
  max_def _ _ := rfl
  compare_eq_compareOfLessAndEq _ _ := rfl

end FairCoin.Verified
