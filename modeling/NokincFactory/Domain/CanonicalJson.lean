/-
  File:      NokincFactory/Domain/CanonicalJson.lean
  Subject:   The two canonical texts of a JSON value, and that each tells the value.

  `content_digest` keeps what is not ASCII and `_canonical_json` escapes it; both write the
  members of an object in key order and nothing between the tokens.

  * `Json.sorted`: a value with the members of its objects in key order;
  * `Json.encode`: what is written of it, its strings by their units;
  * `Json.dumps_eq_render`: the text of `content_digest`;
  * `Json.canonicalJson`: the text of `_canonical_json`;
  * `sorted_obj_of_perm`, `canonical_injective`: one text, one value; one digest, one content.
-/
import NokincFactory.Domain.PyValue

namespace NokincFactory

namespace Json

/-! ## 1. Members in key order -/

/-- The order of `sort_keys`. -/
abbrev KeyLe {α : Type} (a b : String × α) : Prop := a.1 ≤ b.1

instance {α : Type} : Std.Total (KeyLe (α := α)) := ⟨fun a b => le_total a.1 b.1⟩

instance {α : Type} : IsTrans (String × α) KeyLe := ⟨fun _ _ _ => le_trans⟩

mutual
/-- The members of every object in key order. -/
def sorted : Json → Json
  | arr items => arr (sortedItems items)
  | obj members => obj ((sortedMembers members).insertionSort KeyLe)
  | null => null
  | bool b => bool b
  | int n => int n
  | str s => str s

def sortedItems : List Json → List Json
  | [] => []
  | v :: vs => sorted v :: sortedItems vs

def sortedMembers : List (String × Json) → List (String × Json)
  | [] => []
  | (k, v) :: ms => (k, sorted v) :: sortedMembers ms
end

theorem sortedMembers_eq (members : List (String × Json)) :
    sortedMembers members = members.map fun m => (m.1, m.2.sorted) := by
  induction members with
  | nil => rw [sortedMembers, List.map_nil]
  | cons m members ih =>
    obtain ⟨k, v⟩ := m
    rw [sortedMembers, ih, List.map_cons]

/-- The order of the members is forgotten: a Python dict has one value a key. -/
theorem sorted_obj_of_perm {ms ns : List (String × Json)} (hkeys : (ms.map Prod.fst).Nodup)
    (h : ms.Perm ns) : (obj ms).sorted = (obj ns).sorted := by
  have hperm : ((sortedMembers ms).insertionSort KeyLe).Perm
      ((sortedMembers ns).insertionSort KeyLe) := by
    rw [sortedMembers_eq, sortedMembers_eq]
    exact (List.perm_insertionSort KeyLe _).trans
      ((h.map _).trans (List.perm_insertionSort KeyLe _).symm)
  have hone : ((sortedMembers ms).map Prod.fst).Nodup := by
    rw [sortedMembers_eq, List.map_map]
    exact hkeys
  rw [sorted, sorted]
  refine congrArg obj (hperm.eq_of_pairwise (fun m n hm hn hmn hnm => ?_)
    (List.pairwise_insertionSort KeyLe _) (List.pairwise_insertionSort KeyLe _))
  have hmem := (List.mem_insertionSort KeyLe).mp hm
  have hmem' := (List.mem_insertionSort KeyLe).mp (hperm.symm.subset hn)
  exact List.inj_on_of_nodup_map hone hmem hmem' (le_antisymm hmn hnm)

/-! ## 2. What is written -/

section

variable {U : Type} (units : List Char → List U)

mutual
/-- What an encoder writes of a value: strings by their units. -/
def encode : Json → JsonTree U
  | null => .null
  | bool b => .bool b
  | int n => .num (intNumber n)
  | str s => .str (units s)
  | arr items => .arr (encodeItems items)
  | obj members => .obj (encodeMembers members)

def encodeItems : List Json → List (JsonTree U)
  | [] => []
  | v :: vs => encode v :: encodeItems vs

def encodeMembers : List (String × Json) → List (List U × JsonTree U)
  | [] => []
  | (k, v) :: ms => (units k.toList, encode v) :: encodeMembers ms
end

theorem encodeMembers_eq (members : List (String × Json)) :
    encodeMembers units members = members.map fun m => (units m.1.toList, m.2.encode units) := by
  induction members with
  | nil => rw [encodeMembers, List.map_nil]
  | cons m members ih =>
    obtain ⟨k, v⟩ := m
    rw [encodeMembers, ih, List.map_cons]

variable {units}

mutual
/-- Units that tell their string tell a value. -/
theorem encode_injective (hunits : Function.Injective units) : ∀ {v w : Json},
    encode units v = encode units w → v = w
  | null, w, h => by
      cases w <;> simp only [encode, reduceCtorEq] at h
      rfl
  | bool b, w, h => by
      cases w <;> simp only [encode, reduceCtorEq] at h
      rw [JsonTree.bool.inj h]
  | int n, w, h => by
      cases w <;> simp only [encode, reduceCtorEq] at h
      rw [intText_injective (NumberText.mk.inj (JsonTree.num.inj h))]
  | str s, w, h => by
      cases w <;> simp only [encode, reduceCtorEq] at h
      rw [hunits (JsonTree.str.inj h)]
  | arr items, w, h => by
      cases w <;> simp only [encode, reduceCtorEq] at h
      rw [encodeItems_injective hunits (JsonTree.arr.inj h)]
  | obj members, w, h => by
      cases w <;> simp only [encode, reduceCtorEq] at h
      rw [encodeMembers_injective hunits (JsonTree.obj.inj h)]

theorem encodeItems_injective (hunits : Function.Injective units) : ∀ {vs ws : List Json},
    encodeItems units vs = encodeItems units ws → vs = ws
  | [], [], _ => rfl
  | [], w :: ws, h => by
      simp only [encodeItems] at h
      cases h
  | v :: vs, [], h => by
      simp only [encodeItems] at h
      cases h
  | v :: vs, w :: ws, h => by
      simp only [encodeItems] at h
      obtain ⟨hhead, htail⟩ := List.cons.inj h
      rw [encode_injective hunits hhead, encodeItems_injective hunits htail]

theorem encodeMembers_injective (hunits : Function.Injective units) :
    ∀ {ms ns : List (String × Json)},
    encodeMembers units ms = encodeMembers units ns → ms = ns
  | [], [], _ => rfl
  | [], (l, w) :: ns, h => by
      simp only [encodeMembers] at h
      cases h
  | (k, v) :: ms, [], h => by
      simp only [encodeMembers] at h
      cases h
  | (k, v) :: ms, (l, w) :: ns, h => by
      simp only [encodeMembers] at h
      obtain ⟨hhead, htail⟩ := List.cons.inj h
      obtain ⟨hkey, hvalue⟩ := Prod.mk.inj hhead
      rw [String.toList_inj.mp (hunits hkey), encode_injective hunits hvalue,
        encodeMembers_injective hunits htail]
end

end

/-! ## 3. Texts -/

/-- The first character of the body of a string literal, and the rest. -/
def unescapeChar : List Char → Option (Char × List Char)
  | '\\' :: 'u' :: _ :: _ :: c :: d :: rest =>
      some (Char.ofNat (hexValue c * 16 + hexValue d), rest)
  | '\\' :: c :: rest => some (Char.ofNat (controlValue c), rest)
  | c :: rest => some (c, rest)
  | [] => none

theorem unescapeChar_plain {c : Char} (h : c ≠ '\\') (rest : List Char) :
    unescapeChar (c :: rest) = some (c, rest) := by
  unfold unescapeChar
  split
  · next heq => exact absurd (List.cons.inj heq).1 h
  · next heq => exact absurd (List.cons.inj heq).1 h
  · next heq =>
      obtain ⟨rfl, rfl⟩ := List.cons.inj heq
      rfl
  · next heq => cases heq

theorem unescape_escapeChar (c : Char) (rest : List Char) :
    unescapeChar (escapeChar c ++ rest) = some (c, rest) := by
  have hnat : ∀ n, c.toNat = n → Char.ofNat n = c := by
    intro n hn
    rw [← hn, Char.ofNat_toNat]
  unfold escapeChar
  split_ifs with h1 h2 h3 h4 h5 h6 h7 h8
  · rw [h1]
    rfl
  · rw [h2]
    rfl
  · rw [h3]
    rfl
  · rw [h4]
    rfl
  · rw [h5]
    rfl
  · exact congrArg (fun d => some (d, rest)) (hnat 12 h6)
  · exact congrArg (fun d => some (d, rest)) (hnat 8 h7)
  · show some (Char.ofNat (hexValue _ * 16 + hexValue _), rest) = some (c, rest)
    rw [hexValue_hexDigit (by omega), hexValue_hexDigit (by omega), hnat _ (by omega)]
  · exact unescapeChar_plain h2 rest

theorem escapeChar_unquoted (c : Char) : ∃ d ds, escapeChar c = d :: ds ∧ d ≠ '"' := by
  unfold escapeChar
  split_ifs with h1 h2 h3 h4 h5 h6 h7 h8
  · exact ⟨_, _, rfl, by decide⟩
  · exact ⟨_, _, rfl, by decide⟩
  · exact ⟨_, _, rfl, by decide⟩
  · exact ⟨_, _, rfl, by decide⟩
  · exact ⟨_, _, rfl, by decide⟩
  · exact ⟨_, _, rfl, by decide⟩
  · exact ⟨_, _, rfl, by decide⟩
  · exact ⟨_, _, rfl, by decide⟩
  · exact ⟨_, _, rfl, h1⟩

/-- The string literals of `ensure_ascii=False`. -/
def plainCode : StringCode Char where
  escape := escapeChar
  unescape := unescapeChar
  unescape_escape := unescape_escapeChar
  unquoted := escapeChar_unquoted

/-- `preflight._canonical_json`. -/
def canonicalJson (v : Json) : List Char :=
  JsonTree.render asciiCode (encode (fun s => utf16 (pyText s)) v.sorted)

theorem joinWith_items {U : Type} (code : StringCode U) : ∀ vs : List (JsonTree U),
    joinWith ',' (vs.map (JsonTree.render code)) ++ [']'] = JsonTree.renderItems code [] vs
  | [] => rfl
  | [v] => rfl
  | v :: w :: vs => by
      have hrest := joinWith_items code (w :: vs)
      rw [JsonTree.renderItems, List.nil_append] at hrest ⊢
      rw [JsonTree.renderItems, ← hrest]
      show (JsonTree.render code v ++ ',' :: joinWith ',' _) ++ [']'] = _
      rw [List.append_assoc]
      rfl

theorem joinWith_members {U : Type} (code : StringCode U) :
    ∀ ms : List (List U × JsonTree U),
    joinWith ',' (ms.map fun m => code.quote m.1 ++ ':' :: JsonTree.render code m.2) ++ ['\x7d']
      = JsonTree.renderMembers code [] ms
  | [] => rfl
  | [m] => by
      obtain ⟨k, v⟩ := m
      rw [JsonTree.renderMembers, List.nil_append, JsonTree.renderMembers]
      exact List.append_assoc _ _ _
  | m :: n :: ms => by
      obtain ⟨k, v⟩ := m
      obtain ⟨l, w⟩ := n
      have hrest := joinWith_members code ((l, w) :: ms)
      rw [JsonTree.renderMembers, List.nil_append] at hrest ⊢
      rw [JsonTree.renderMembers, ← hrest]
      show ((code.quote k ++ ':' :: JsonTree.render code v) ++ ',' :: joinWith ',' _) ++ _ = _
      rw [List.append_assoc, List.append_assoc]
      rfl

mutual
/-- What `content_digest` hashes. -/
theorem dumps_eq_render : ∀ v : Json, v.dumps = JsonTree.render plainCode (encode id v.sorted)
  | null => by rw [dumps, sorted, encode, JsonTree.render]
  | bool true => by rw [dumps, sorted, encode, JsonTree.render]
  | bool false => by rw [dumps, sorted, encode, JsonTree.render]
  | int n => by
      rw [dumps, sorted, encode, JsonTree.render]
      rfl
  | str s => by
      rw [dumps, sorted, encode, JsonTree.render]
      rfl
  | arr items => by
      rw [dumps, sorted, encode, JsonTree.render, dumpsItems_eq, joinWith_items]
  | obj members => by
      have hsort := List.map_insertionSort KeyLe KeyLe
        (fun m : String × Json => (m.1, JsonTree.render plainCode (encode id m.2)))
        (sortedMembers members) (fun m _ n _ => Iff.rfl)
      rw [dumps, sorted, encode, JsonTree.render, ← joinWith_members, encodeMembers_eq,
        dumpsMembers_eq, List.map_map, ← hsort, List.map_map]
      rfl

theorem dumpsItems_eq : ∀ vs : List Json,
    dumpsItems vs = (encodeItems id (sortedItems vs)).map (JsonTree.render plainCode)
  | [] => by rw [dumpsItems, sortedItems, encodeItems, List.map_nil]
  | v :: vs => by
      rw [dumpsItems, sortedItems, encodeItems, List.map_cons, dumps_eq_render v, dumpsItems_eq vs]

theorem dumpsMembers_eq : ∀ ms : List (String × Json),
    dumpsMembers ms =
      (sortedMembers ms).map fun m => (m.1, JsonTree.render plainCode (encode id m.2))
  | [] => by rw [dumpsMembers, sortedMembers, List.map_nil]
  | (k, v) :: ms => by
      rw [dumpsMembers, sortedMembers, List.map_cons, dumps_eq_render v, dumpsMembers_eq ms]
end

end Json

/-! ## 4. One text, one value -/

theorem Json.dumps_eq {v w : Json} : v.dumps = w.dumps ↔ v.sorted = w.sorted := by
  constructor
  · intro h
    rw [Json.dumps_eq_render, Json.dumps_eq_render] at h
    exact Json.encode_injective Function.injective_id (JsonTree.render_injective _ h)
  · intro h
    rw [Json.dumps_eq_render, Json.dumps_eq_render, h]

theorem Json.canonicalJson_eq {v w : Json} :
    v.canonicalJson = w.canonicalJson ↔ v.sorted = w.sorted := by
  constructor
  · intro h
    refine Json.encode_injective (fun s t hst => ?_) (JsonTree.render_injective _ h)
    exact pyText_injective (utf16_injective (unpaired_pyText s) (unpaired_pyText t) hst)
  · intro h
    rw [Json.canonicalJson, Json.canonicalJson, h]

namespace ReviewModel

variable {α : Type} [ReviewModel α]

/-- What a model holds, without its digest. -/
def content (value : α) : Json := (Json.obj (dump value)).sorted

/-- The text that its digest is of. -/
def hashedText (value : α) : List Char := (Json.obj (dump value)).dumps

end ReviewModel

open ReviewModel in
/-- Both canonical texts tell the value up to the order of the members of its objects; and a
digest that SHA-256 does not confuse tells the content of a model. -/
theorem canonical_injective :
    (∀ v w : Json, v.dumps = w.dumps ↔ v.sorted = w.sorted) ∧
    (∀ v w : Json, v.canonicalJson = w.canonicalJson ↔ v.sorted = w.sorted) ∧
    ∀ [Sha256] (α : Type) [ReviewModel α] (a b : α),
      (Sha256.digest (hashedText a) = Sha256.digest (hashedText b) →
        hashedText a = hashedText b) →
      contentDigest a = contentDigest b → content a = content b := by
  refine ⟨fun v w => Json.dumps_eq, fun v w => Json.canonicalJson_eq, ?_⟩
  intro _ α _ a b hsha h
  have htext : hashedText a = hashedText b := hsha h
  exact Json.dumps_eq.mp htext

end NokincFactory
