/-
  File:      NokincFactory/Domain/PyRecord.lean
  Subject:   What the encoder tells of dicts, and of records with fixed keys.

  * `PyValue.encode_dict`, `perm_of_encode_dict`: dicts with one text have the same members;
  * `str_of_encode`, `text_of_encode`, `int_of_encode`: strings and numbers;
  * `record`, `record_encode`: records with one text have the same values;
  * `encode_list`, `map_eq_map_iff`: lists with one text.
-/
import NokincFactory.Domain.PyValue

namespace NokincFactory

/-! ## 1. Dicts -/

namespace PyValue

/-- The members of a dict, as they are written but under their own keys. -/
def keyed (members : List (PyStr × PyValue)) : List (PyStr × JsonTree Utf16Unit) :=
  members.map fun m => (m.1, m.2.sorted.encode)

theorem sortedMembers_eq (members : List (PyStr × PyValue)) :
    sortedMembers members = members.map fun m => (m.1, m.2.sorted) := by
  induction members with
  | nil => rw [sortedMembers, List.map_nil]
  | cons m members ih =>
      obtain ⟨k, v⟩ := m
      rw [sortedMembers, ih, List.map_cons]

theorem encodeMembers_eq (members : List (PyStr × PyValue)) :
    encodeMembers members = members.map fun m => (utf16 m.1, m.2.encode) := by
  induction members with
  | nil => rw [encodeMembers, List.map_nil]
  | cons m members ih =>
      obtain ⟨k, v⟩ := m
      rw [encodeMembers, ih, List.map_cons]

/-- A dict is written by its keyed members, in key order. -/
theorem encode_dict (members : List (PyStr × PyValue)) :
    (dict members).sorted.encode =
      .obj (((keyed members).insertionSort keyLe).map fun m => (utf16 m.1, m.2)) := by
  have hsort : ((members.map fun m => (m.1, m.2.sorted)).insertionSort keyLe).map
      (fun m => (m.1, m.2.encode)) = (keyed members).insertionSort keyLe := by
    refine (List.map_insertionSort keyLe keyLe (fun m : PyStr × PyValue => (m.1, m.2.encode)) _
      (fun a _ b _ => Iff.rfl)).trans ?_
    rw [List.map_map]
    rfl
  rw [sorted, encode, encodeMembers_eq, sortedMembers_eq, ← hsort, List.map_map]
  rfl

/-- Dicts with one text have the same members in UTF-16, in some order. -/
theorem perm_of_encode_dict {ms ns : List (PyStr × PyValue)}
    (h : (dict ms).sorted.encode = (dict ns).sorted.encode) :
    ((keyed ms).map fun m => (utf16 m.1, m.2)).Perm ((keyed ns).map fun m => (utf16 m.1, m.2)) := by
  rw [encode_dict, encode_dict] at h
  have hmembers := JsonTree.obj.inj h
  refine ((List.perm_insertionSort keyLe _).map _).symm.trans ?_
  rw [hmembers]
  exact (List.perm_insertionSort keyLe _).map _

theorem encode_dict_congr {ms ns : List (PyStr × PyValue)} (h : keyed ms = keyed ns) :
    (dict ms).sorted.encode = (dict ns).sorted.encode := by
  rw [encode_dict, encode_dict, h]

/-- The members of a dict, as they are written. -/
def written (members : List (PyStr × PyValue)) : List (List Utf16Unit × JsonTree Utf16Unit) :=
  (keyed members).map fun m => (utf16 m.1, m.2)

theorem written_append (ms ns : List (PyStr × PyValue)) :
    written (ms ++ ns) = written ms ++ written ns := by
  unfold written keyed
  rw [List.map_append, List.map_append]

/-! ## 2. Strings and numbers -/

theorem encode_str (s : PyStr) : (str s).sorted.encode = .str (utf16 s) := by
  simp only [sorted, encode]

theorem str_of_encode {s t : PyStr} (h : (str s).sorted.encode = (str t).sorted.encode) :
    utf16 s = utf16 t := by
  simp only [sorted, encode] at h
  exact JsonTree.str.inj h

theorem text_of_encode {cs ds : List Char}
    (h : (str (pyText cs)).sorted.encode = (str (pyText ds)).sorted.encode) : cs = ds :=
  pyText_injective (utf16_injective (unpaired_pyText cs) (unpaired_pyText ds) (str_of_encode h))

theorem int_of_encode {m n : Int} (h : (int m).sorted.encode = (int n).sorted.encode) : m = n := by
  simp only [sorted, encode] at h
  exact intText_injective (NumberText.mk.inj (JsonTree.num.inj h))

/-! ## 3. Records and lists -/

/-- A dict whose keys are given. -/
def record (fields : List (String × PyValue)) : PyValue :=
  dict (fields.map fun field => (pyStr field.1, field.2))

theorem keyed_record (fields : List (String × PyValue)) :
    keyed (fields.map fun field => (pyStr field.1, field.2)) =
      fields.map fun field => (pyStr field.1, field.2.sorted.encode) := by
  rw [keyed, List.map_map]
  rfl

/-- Records with the same keys have one text when their values have. -/
theorem record_encode {keys : List String} (hnodup : (keys.map fun key => utf16 (pyStr key)).Nodup)
    {fs gs : List (String × PyValue)} (hfs : fs.map Prod.fst = keys)
    (hgs : gs.map Prod.fst = keys) :
    (record fs).sorted.encode = (record gs).sorted.encode ↔
      fs.map (fun field => field.2.sorted.encode) = gs.map fun field => field.2.sorted.encode := by
  constructor
  · intro h
    have hperm := perm_of_encode_dict h
    rw [keyed_record, keyed_record] at hperm
    have hkeys : (fs.map Prod.fst).map (fun key => utf16 (pyStr key))
        = (gs.map Prod.fst).map fun key => utf16 (pyStr key) := by rw [hfs, hgs]
    rw [← hfs, List.map_map] at hnodup
    rw [List.map_map, List.map_map] at hkeys
    have hsame := members_eq_of_perm (by rw [List.map_map, List.map_map]; exact hnodup)
      (by rw [List.map_map, List.map_map, List.map_map, List.map_map]; exact hkeys) hperm
    have hvalues := congrArg (List.map Prod.snd) hsame
    rw [List.map_map, List.map_map, List.map_map, List.map_map] at hvalues
    exact hvalues
  · intro h
    refine encode_dict_congr ?_
    have hkeys : (fs.map Prod.fst).map pyStr = (gs.map Prod.fst).map pyStr := by rw [hfs, hgs]
    rw [List.map_map, List.map_map] at hkeys
    have hzip := congrArg₂ List.zip hkeys h
    rw [List.zip_map', List.zip_map'] at hzip
    rw [keyed_record, keyed_record]
    exact hzip

theorem encodeItems_eq (items : List PyValue) : encodeItems items = items.map encode := by
  induction items with
  | nil => rw [encodeItems, List.map_nil]
  | cons v items ih => rw [encodeItems, ih, List.map_cons]

theorem sortedItems_eq (items : List PyValue) : sortedItems items = items.map sorted := by
  induction items with
  | nil => rw [sortedItems, List.map_nil]
  | cons v items ih => rw [sortedItems, ih, List.map_cons]

theorem encode_list {vs ws : List PyValue} :
    (list vs).sorted.encode = (list ws).sorted.encode ↔
      vs.map (fun v => v.sorted.encode) = ws.map fun v => v.sorted.encode := by
  rw [sorted, sorted, encode, encode, encodeItems_eq, encodeItems_eq, sortedItems_eq,
    sortedItems_eq, List.map_map, List.map_map]
  exact ⟨JsonTree.arr.inj, congrArg JsonTree.arr⟩

end PyValue

/-- Images of two lists are one when each element tells as much in both. -/
theorem map_eq_map_iff {α β γ : Type} {f : α → β} {g : α → γ}
    (h : ∀ a b, f a = f b ↔ g a = g b) :
    ∀ {xs ys : List α}, xs.map f = ys.map f ↔ xs.map g = ys.map g
  | [], [] => ⟨fun _ => rfl, fun _ => rfl⟩
  | [], _ :: _ => ⟨fun h => (nomatch h), fun h => (nomatch h)⟩
  | _ :: _, [] => ⟨fun h => (nomatch h), fun h => (nomatch h)⟩
  | x :: xs, y :: ys => by
      rw [List.map_cons, List.map_cons, List.map_cons, List.map_cons, List.cons.injEq,
        List.cons.injEq, h x y, map_eq_map_iff h]

end NokincFactory
