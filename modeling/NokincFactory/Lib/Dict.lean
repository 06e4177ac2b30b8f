/-
  File:      NokincFactory/Lib/Dict.lean
  Subject:   Dictionaries that are built in one pass and read back in key order.

  A `Dict κ α` is Mathlib's `AList` at a constant family. The iteration order of
  a dictionary is never observed here: a pass over a dictionary goes key by key
  and touches that key only, and a dictionary leaves as its values in key order.

  * `Dict.ofValues`: index a list by a key, a later entry replacing an earlier one;
  * `Dict.revise`, `Dict.reviseAll`: one pass of point updates, each of which may
    read the current entry of its own key, leave it or replace it;
  * `Dict.lookup_reviseAll`: with distinct keys the pass acts pointwise, on the
    entries as they were BEFORE the pass;
  * `Dict.reviseAllM`, `Dict.lookup_reviseAllM`: the same for a pass that may raise;
  * `Dict.sortedValues`, `Dict.mem_sortedValues`, `Dict.sortedValues_nodup`;
  * `Dict.sortedItems`, `Dict.mem_sortedItems`.
-/
import Mathlib.Data.List.AList
import Mathlib.Data.List.Sort
import NokincFactory.Lib.Checked

namespace NokincFactory

/-- Finite dictionaries from `κ` to `α`. -/
abbrev Dict (κ α : Type) : Type := AList (fun _ : κ => α)

namespace Dict

variable {κ α γ ε : Type} [DecidableEq κ]

/-! ## 1. Indexing a list -/

/-- Index a list of values by `key`; of two values with one key the later one stays. -/
def ofValues (key : α → κ) (values : List α) : Dict κ α :=
  values.foldl (fun d v => AList.insert (key v) v d) ∅

theorem lookup_foldl_insert (key : α → κ) (k : κ) :
    ∀ (values : List α) (d : Dict κ α), (values.map key).Nodup →
      AList.lookup k (values.foldl (fun d v => AList.insert (key v) v d) d) =
        (values.find? (fun v => key v = k)).or (AList.lookup k d)
  | [], d, _ => by simp
  | v :: values, d, hn => by
      have hn' : key v ∉ values.map key ∧ (values.map key).Nodup := by simpa using hn
      rw [List.foldl_cons, lookup_foldl_insert key k values _ hn'.2]
      by_cases hk : key v = k
      · subst hk
        have hnone : values.find? (fun w => key w = key v) = none := by
          refine List.find?_eq_none.mpr fun w hw he => hn'.1 ?_
          exact List.mem_map.mpr ⟨w, hw, by simpa using he⟩
        simp [hnone]
      · rw [AList.lookup_insert_ne (fun e => hk e.symm), List.find?_cons_of_neg (by simpa using hk)]

/-- With distinct keys, looking a key up finds the value that carries it. -/
theorem lookup_ofValues {key : α → κ} {values : List α} (hn : (values.map key).Nodup) (k : κ) :
    AList.lookup k (ofValues key values) = values.find? (fun v => key v = k) := by
  unfold ofValues
  rw [lookup_foldl_insert key k values ∅ hn, AList.lookup_empty, Option.or_none]

theorem lookup_ofValues_iff {key : α → κ} {values : List α} (hn : (values.map key).Nodup)
    {k : κ} {v : α} : AList.lookup k (ofValues key values) = some v ↔ v ∈ values ∧ key v = k := by
  rw [lookup_ofValues hn]
  constructor
  · intro h
    exact ⟨List.mem_of_find?_eq_some h, by simpa using List.find?_some h⟩
  · rintro ⟨hv, rfl⟩
    induction values with
    | nil => cases hv
    | cons w values ih =>
        have hn' : key w ∉ values.map key ∧ (values.map key).Nodup := by simpa using hn
        rcases List.mem_cons.mp hv with rfl | hv
        · simp
        · have hne : key w ≠ key v := fun e => hn'.1 (e ▸ List.mem_map_of_mem hv)
          rw [List.find?_cons_of_neg (by simpa using hne)]
          exact ih hn'.2 hv

/-- Whatever the keys, a value found under `k` carries the key `k`. -/
theorem key_of_lookup_ofValues {key : α → κ} {values : List α} {k : κ} {v : α}
    (h : AList.lookup k (ofValues key values) = some v) : key v = k ∧ v ∈ values := by
  suffices H : ∀ (values : List α) (d : Dict κ α),
      AList.lookup k (values.foldl (fun d v => AList.insert (key v) v d) d) = some v →
        (key v = k ∧ v ∈ values) ∨ AList.lookup k d = some v by
    rcases H values ∅ h with h | h
    · exact h
    · simp at h
  intro values
  induction values with
  | nil => intro d h; exact Or.inr h
  | cons w values ih =>
      intro d h
      rcases ih _ h with ⟨hk, hv⟩ | h
      · exact Or.inl ⟨hk, List.mem_cons_of_mem _ hv⟩
      · by_cases hk : k = key w
        · subst hk
          rw [AList.lookup_insert] at h
          obtain rfl := Option.some.inj h
          exact Or.inl ⟨rfl, List.mem_cons_self⟩
        · rw [AList.lookup_insert_ne hk] at h
          exact Or.inr h

theorem mem_keys_ofValues {key : α → κ} {values : List α} {k : κ} :
    k ∈ (ofValues key values).keys ↔ k ∈ values.map key := by
  suffices H : ∀ (values : List α) (d : Dict κ α),
      k ∈ (values.foldl (fun d v => AList.insert (key v) v d) d).keys ↔
        k ∈ d.keys ∨ k ∈ values.map key by
    refine (H values ∅).trans ?_
    simp
  intro values
  induction values with
  | nil => intro d; simp
  | cons v values ih =>
      intro d
      rw [List.foldl_cons, ih, ← AList.mem_keys, AList.mem_insert, AList.mem_keys, List.map_cons,
        List.mem_cons]
      tauto

/-- As many keys as values: no two values share a key. -/
theorem nodup_of_length_keys {key : α → κ} {values : List α}
    (h : (ofValues key values).keys.length = values.length) : (values.map key).Nodup := by
  have hsub : (ofValues key values).keys ⊆ values.map key := fun k hk => mem_keys_ofValues.mp hk
  have hsubperm := List.subperm_of_subset (ofValues key values).keys_nodup hsub
  have hperm := hsubperm.perm_of_length_le (by rw [List.length_map, h])
  exact hperm.nodup_iff.mp (ofValues key values).keys_nodup

/-! ## 2. One pass of point updates -/

/-- Revise the entry of `k`: `f` reads the current entry and answers the new
    one, or `none` to leave the dictionary as it is. -/
def revise (d : Dict κ α) (k : κ) (f : Option α → Option α) : Dict κ α :=
  match f (AList.lookup k d) with
  | some v => AList.insert k v d
  | none => d

theorem lookup_revise (d : Dict κ α) (k k' : κ) (f : Option α → Option α) :
    AList.lookup k' (revise d k f) =
      if k = k' then (f (AList.lookup k' d)).or (AList.lookup k' d) else AList.lookup k' d := by
  unfold revise
  by_cases hk : k = k'
  · subst hk
    cases h : f (AList.lookup k d) with
    | none => simp
    | some v => simp
  · rw [if_neg hk]
    cases h : f (AList.lookup k d) with
    | none => rfl
    | some v => exact AList.lookup_insert_ne fun e => hk e.symm

/-- One pass over `xs`, each element revising the entry of its own key. -/
def reviseAll (key : γ → κ) (f : γ → Option α → Option α) (xs : List γ) (d : Dict κ α) :
    Dict κ α :=
  xs.foldl (fun d x => revise d (key x) (f x)) d

/-- A pass with distinct keys acts pointwise: the entry of `k` is revised by the
    element that carries `k`, if there is one, on what stood there before the pass. -/
theorem lookup_reviseAll (key : γ → κ) (f : γ → Option α → Option α) (k : κ) :
    ∀ (xs : List γ) (d : Dict κ α), (xs.map key).Nodup →
      AList.lookup k (reviseAll key f xs d) =
        ((xs.find? (fun x => key x = k)).bind (fun x => f x (AList.lookup k d))).or
          (AList.lookup k d)
  | [], d, _ => by simp [reviseAll]
  | x :: xs, d, hn => by
      have hn' : key x ∉ xs.map key ∧ (xs.map key).Nodup := by simpa using hn
      have ih := lookup_reviseAll key f k xs (revise d (key x) (f x)) hn'.2
      have hcons : reviseAll key f (x :: xs) d = reviseAll key f xs (revise d (key x) (f x)) := rfl
      rw [hcons, ih, lookup_revise]
      by_cases hk : key x = k
      · subst hk
        have hnone : xs.find? (fun w => key w = key x) = none := by
          refine List.find?_eq_none.mpr fun w hw he => hn'.1 ?_
          exact List.mem_map.mpr ⟨w, hw, by simpa using he⟩
        simp [hnone]
      · rw [if_neg hk, List.find?_cons_of_neg (by simpa using hk)]

/-- One pass that may raise: `f` answers the replacement, leaves, or raises. -/
def reviseAllM (key : γ → κ) (f : γ → Option α → Except ε (Option α)) (xs : List γ)
    (d : Dict κ α) : Except ε (Dict κ α) :=
  xs.foldlM (fun d x => do
    let entry ← f x (AList.lookup (key x) d)
    pure (revise d (key x) fun _ => entry)) d

/-- A pass that returned ran `f` on the entries as they stood before the pass,
    once for every element, and did pointwise what `f` answered. -/
theorem lookup_reviseAllM (key : γ → κ) (f : γ → Option α → Except ε (Option α)) :
    ∀ (xs : List γ) (d d' : Dict κ α), (xs.map key).Nodup → reviseAllM key f xs d = .ok d' →
      ∃ g : γ → Option α, (∀ x ∈ xs, f x (AList.lookup (key x) d) = .ok (g x)) ∧
        ∀ k, AList.lookup k d' =
          ((xs.find? (fun x => key x = k)).bind g).or (AList.lookup k d)
  | [], d, d', _, h => by
      have hd : d = d' := by simpa [reviseAllM, Except.pure_ok] using h
      subst hd
      exact ⟨fun _ => none, fun x hx => (List.not_mem_nil hx).elim, fun k => by simp⟩
  | x :: xs, d, d', hn, h => by
      have hn' : key x ∉ xs.map key ∧ (xs.map key).Nodup := by simpa using hn
      unfold reviseAllM at h
      rw [List.foldlM_cons, Except.bind_ok] at h
      obtain ⟨d₁, h₁, h₂⟩ := h
      obtain ⟨entry, he, hp⟩ := Except.bind_ok.mp h₁
      have hd₁ : revise d (key x) (fun _ => entry) = d₁ := Except.pure_ok.mp hp
      subst hd₁
      obtain ⟨g, hg, hl⟩ := lookup_reviseAllM key f xs _ d' hn'.2 h₂
      have hne : ∀ y ∈ xs, key x ≠ key y := fun y hy e => hn'.1 (e ▸ List.mem_map_of_mem hy)
      refine ⟨fun y => if key y = key x then entry else g y, fun y hy => ?_, fun k => ?_⟩
      · rcases List.mem_cons.mp hy with rfl | hy
        · simpa using he
        · have hkey := hg y hy
          rw [lookup_revise, if_neg (hne y hy)] at hkey
          show f y (AList.lookup (key y) d) = .ok (if key y = key x then entry else g y)
          rw [if_neg fun e => hne y hy e.symm]
          exact hkey
      · rw [hl k, lookup_revise]
        by_cases hk : key x = k
        · subst hk
          have hnone : xs.find? (fun w => key w = key x) = none := by
            refine List.find?_eq_none.mpr fun w hw he => hne w hw ?_
            exact (by simpa using he : key w = key x).symm
          simp [hnone]
        · rw [if_neg hk, List.find?_cons_of_neg (by simpa using hk)]
          congr 1
          cases hf : xs.find? (fun w => key w = k) with
          | none => rfl
          | some y =>
              have hy : key y = k := by simpa using List.find?_some hf
              have hyx : key y ≠ key x := fun e => hk (e.symm.trans hy)
              simp [hyx]

/-! ## 3. Values in key order -/

variable [LinearOrder κ]

/-- The values of a dictionary in the order of their keys. -/
def sortedValues (d : Dict κ α) : List α :=
  (d.keys.insertionSort (· ≤ ·)).filterMap (fun k => AList.lookup k d)

theorem mem_sortedValues {d : Dict κ α} {v : α} :
    v ∈ sortedValues d ↔ ∃ k, AList.lookup k d = some v := by
  unfold sortedValues
  rw [List.mem_filterMap]
  constructor
  · rintro ⟨k, -, h⟩
    exact ⟨k, h⟩
  · rintro ⟨k, h⟩
    refine ⟨k, (List.mem_insertionSort _).mpr ?_, h⟩
    exact AList.mem_keys.mp (AList.lookup_isSome.mp (by rw [h]; rfl))

/-- Where every entry carries its own key, reading the values back gives distinct keys. -/
theorem sortedValues_nodup {key : α → κ} {d : Dict κ α}
    (hkey : ∀ k v, AList.lookup k d = some v → key v = k) :
    ((sortedValues d).map key).Nodup := by
  have hkeys : (d.keys.insertionSort (· ≤ ·)).Nodup :=
    (List.perm_insertionSort (· ≤ ·) d.keys).nodup_iff.mpr d.keys_nodup
  unfold sortedValues
  generalize d.keys.insertionSort (· ≤ ·) = ks at hkeys
  induction ks with
  | nil => exact List.nodup_nil
  | cons k ks ih =>
      obtain ⟨hk, hks⟩ := List.nodup_cons.mp hkeys
      cases hv : AList.lookup k d with
      | none => simpa [hv] using ih hks
      | some v =>
          simp only [List.filterMap_cons, hv, List.map_cons]
          refine List.nodup_cons.mpr ⟨fun hmem => ?_, ih hks⟩
          obtain ⟨w, hw, hwk⟩ := List.mem_map.mp hmem
          obtain ⟨k', hk', hl⟩ := List.mem_filterMap.mp hw
          have : k' = k := (hkey k' w hl).symm.trans (hwk.trans (hkey k v hv))
          exact hk (this ▸ hk')

/-- Reading such a dictionary back and indexing it again changes nothing. -/
theorem lookup_ofValues_sortedValues {key : α → κ} {d : Dict κ α}
    (hkey : ∀ k v, AList.lookup k d = some v → key v = k) (k : κ) :
    AList.lookup k (ofValues key (sortedValues d)) = AList.lookup k d := by
  have hn := sortedValues_nodup hkey
  cases h : AList.lookup k d with
  | some v => exact (lookup_ofValues_iff hn).mpr ⟨mem_sortedValues.mpr ⟨k, h⟩, hkey k v h⟩
  | none =>
      cases h' : AList.lookup k (ofValues key (sortedValues d)) with
      | none => rfl
      | some v =>
          obtain ⟨hv, hvk⟩ := (lookup_ofValues_iff hn).mp h'
          obtain ⟨k', hk'⟩ := mem_sortedValues.mp hv
          rw [← hkey k' v hk', hvk, h] at hk'
          cases hk'

/-- The entries of a dictionary in the order of their keys. -/
def sortedItems (d : Dict κ α) : List (κ × α) :=
  (d.keys.insertionSort (· ≤ ·)).filterMap (fun k => (AList.lookup k d).map (k, ·))

theorem mem_sortedItems {d : Dict κ α} {k : κ} {v : α} :
    (k, v) ∈ sortedItems d ↔ AList.lookup k d = some v := by
  unfold sortedItems
  rw [List.mem_filterMap]
  constructor
  · intro ⟨k', _, h⟩
    obtain ⟨v', hv, hpair⟩ := Option.map_eq_some_iff.mp h
    obtain ⟨rfl, rfl⟩ := Prod.mk.inj hpair
    exact hv
  · intro h
    refine ⟨k, (List.mem_insertionSort _).mpr ?_, by rw [h]; rfl⟩
    exact AList.mem_keys.mp (AList.lookup_isSome.mp (by rw [h]; rfl))

end Dict

end NokincFactory
