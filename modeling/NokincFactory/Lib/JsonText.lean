/-
  File:      NokincFactory/Lib/JsonText.lean
  Subject:   JSON texts without blanks, and that such a text has one reading.

  Strings are lists over any alphabet that has a self-delimiting escape; numbers are texts of
  number characters. A value is not read differently whatever delimiter follows it.

  * `NumberText`, `StringCode`, `JsonTree`: numbers, escapes, values;
  * `JsonTree.render`: the text of a value;
  * `JsonTree.render_append`: the value and what follows it, from the text;
    `JsonTree.render_injective`: two values with one text are one value;
  * `members_eq_of_perm`, `valuesAt`: what objects share whose members are the same in some
    order.
-/
import Mathlib.Data.List.Perm.Basic

namespace NokincFactory

/-! ## 1. Values -/

/-- The characters of a number. -/
def numberChar (c : Char) : Bool :=
  c.isDigit || c = '-' || c = '+' || c = '.' || c = 'e'

/-- The text of a number. -/
structure NumberText where
  chars : List Char
  nonempty : chars ≠ []
  shape : ∀ c ∈ chars, numberChar c = true

/-- How the units of a string are written between quotes. -/
structure StringCode (U : Type) where
  escape : U → List Char
  unescape : List Char → Option (U × List Char)
  unescape_escape : ∀ u rest, unescape (escape u ++ rest) = some (u, rest)
  unquoted : ∀ u, ∃ c cs, escape u = c :: cs ∧ c ≠ '"'

variable {U : Type}

/-- A JSON value: an object lists its members in the order of the text. -/
inductive JsonTree (U : Type) where
  | null
  | bool (value : Bool)
  | num (text : NumberText)
  | str (value : List U)
  | arr (items : List (JsonTree U))
  | obj (members : List (List U × JsonTree U))

/-! ## 2. Texts -/

/-- A string between quotes. -/
def StringCode.quote (code : StringCode U) (s : List U) : List Char :=
  '"' :: (s.flatMap code.escape ++ ['"'])

namespace JsonTree

mutual
/-- The text of a value. -/
def render (code : StringCode U) : JsonTree U → List Char
  | null => ['n', 'u', 'l', 'l']
  | bool true => ['t', 'r', 'u', 'e']
  | bool false => ['f', 'a', 'l', 's', 'e']
  | num text => text.chars
  | str value => code.quote value
  | arr items => '[' :: renderItems code [] items
  | obj members => '{' :: renderMembers code [] members

/-- Items, each after a separator; the first one after `sep`. -/
def renderItems (code : StringCode U) (sep : List Char) : List (JsonTree U) → List Char
  | [] => [']']
  | v :: vs => sep ++ (render code v ++ renderItems code [','] vs)

def renderMembers (code : StringCode U) (sep : List Char) :
    List (List U × JsonTree U) → List Char
  | [] => ['}']
  | (k, v) :: ms =>
      sep ++ (code.quote k ++ (':' :: (render code v ++ renderMembers code [','] ms)))
end

end JsonTree

/-! ## 3. Reading -/

/-- What may follow a value: nothing, or a character of no value. -/
def Delimited : List Char → Prop
  | [] => True
  | c :: _ => c = ',' ∨ c = ']' ∨ c = '}'

theorem Delimited.not_numberChar {c : Char} {cs : List Char} (h : Delimited (c :: cs)) :
    numberChar c = false := by
  rcases h with rfl | rfl | rfl <;> decide

/-- Where a number ends. -/
theorem takeWhile_number (t : NumberText) {r : List Char} (hr : Delimited r) :
    (t.chars ++ r).takeWhile numberChar = t.chars := by
  rw [List.takeWhile_append_of_pos t.shape]
  cases r with
  | nil => exact List.append_nil _
  | cons c cs =>
      rw [List.takeWhile_cons_of_neg (by rw [hr.not_numberChar]; exact Bool.false_ne_true)]
      exact List.append_nil _

theorem number_append {t t' : NumberText} {r s : List Char} (hr : Delimited r)
    (hs : Delimited s) (h : t.chars ++ r = t'.chars ++ s) : t = t' ∧ r = s := by
  have hchars : t.chars = t'.chars := by
    rw [← takeWhile_number t hr, h, takeWhile_number t' hs]
  rw [hchars] at h
  refine ⟨?_, List.append_cancel_left h⟩
  cases t
  cases t'
  cases hchars
  rfl

variable (code : StringCode U)

/-- A string body ends at the first quote that is not escaped. -/
theorem body_append {s s' : List U} {r r' : List Char}
    (h : s.flatMap code.escape ++ '"' :: r = s'.flatMap code.escape ++ '"' :: r') :
    s = s' ∧ r = r' := by
  induction s generalizing s' with
  | nil =>
      cases s' with
      | nil => exact ⟨rfl, (List.cons.inj h).2⟩
      | cons u us =>
          obtain ⟨c, cs, hc, hne⟩ := code.unquoted u
          rw [List.flatMap_cons, hc] at h
          exact absurd (List.cons.inj h).1.symm hne
  | cons u us ih =>
      cases s' with
      | nil =>
          obtain ⟨c, cs, hc, hne⟩ := code.unquoted u
          rw [List.flatMap_cons, hc] at h
          exact absurd (List.cons.inj h).1 hne
      | cons u' us' =>
          rw [List.flatMap_cons, List.flatMap_cons, List.append_assoc, List.append_assoc] at h
          have hread := congrArg code.unescape h
          rw [code.unescape_escape, code.unescape_escape] at hread
          obtain ⟨rfl, hrest⟩ := Prod.mk.inj (Option.some.inj hread)
          obtain ⟨rfl, hr⟩ := ih hrest
          exact ⟨rfl, hr⟩

theorem quote_append {s s' : List U} {r r' : List Char}
    (h : code.quote s ++ r = code.quote s' ++ r') : s = s' ∧ r = r' := by
  have hbody : s.flatMap code.escape ++ ['"'] ++ r = s'.flatMap code.escape ++ ['"'] ++ r' :=
    (List.cons.inj h).2
  rw [List.append_assoc, List.append_assoc] at hbody
  exact body_append code hbody

namespace JsonTree

/-- Which kind of value starts with a character. -/
def kindOfChar (c : Char) : ℕ :=
  if c = 'n' then 0 else if c = 't' ∨ c = 'f' then 1 else if c = '"' then 2
  else if c = '[' then 3 else if c = '{' then 4 else 5

def kind : JsonTree U → ℕ
  | null => 0
  | bool _ => 1
  | str _ => 2
  | arr _ => 3
  | obj _ => 4
  | num _ => 5

theorem kindOfChar_number {c : Char} (h : numberChar c = true) : kindOfChar c = 5 := by
  have hne : ∀ d : Char, numberChar d = false → c ≠ d := by
    intro d hd hcd
    rw [hcd, hd] at h
    cases h
  unfold kindOfChar
  rw [if_neg (hne 'n' (by decide)), if_neg (by
      rintro (hc | hc)
      · exact hne 't' (by decide) hc
      · exact hne 'f' (by decide) hc), if_neg (hne '"' (by decide)), if_neg (hne '[' (by decide)),
    if_neg (hne '{' (by decide))]

/-- The first character tells the kind, and is no closing one. -/
theorem head_render (v : JsonTree U) : ∃ c cs, render code v = c :: cs ∧
    kindOfChar c = v.kind ∧ c ≠ ']' ∧ c ≠ '}' := by
  cases v with
  | null => exact ⟨'n', _, by rw [render], rfl, by decide, by decide⟩
  | bool b =>
      cases b with
      | true => exact ⟨'t', _, by rw [render], rfl, by decide, by decide⟩
      | false => exact ⟨'f', _, by rw [render], rfl, by decide, by decide⟩
  | str s => exact ⟨'"', _, by rw [render]; rfl, rfl, by decide, by decide⟩
  | arr items => exact ⟨'[', _, by rw [render], rfl, by decide, by decide⟩
  | obj members => exact ⟨'{', _, by rw [render], rfl, by decide, by decide⟩
  | num t =>
      obtain ⟨c, cs, hc⟩ := List.exists_cons_of_ne_nil t.nonempty
      have hnum := t.shape c (by rw [hc]; exact List.mem_cons_self)
      refine ⟨c, cs, by rw [render, hc], kindOfChar_number hnum, ?_, ?_⟩
      · rintro rfl
        cases hnum
      · rintro rfl
        cases hnum

theorem kind_eq {v w : JsonTree U} {r s : List Char}
    (h : render code v ++ r = render code w ++ s) : v.kind = w.kind := by
  obtain ⟨c, cs, hc, hv, -⟩ := head_render code v
  obtain ⟨d, ds, hd, hw, -⟩ := head_render code w
  rw [hc, hd] at h
  rw [← hv, ← hw, (List.cons.inj h).1]

theorem delimited_items (vs : List (JsonTree U)) (r : List Char) :
    Delimited (renderItems code [','] vs ++ r) := by
  cases vs with
  | nil =>
      rw [renderItems]
      exact .inr (.inl rfl)
  | cons v vs =>
      rw [renderItems]
      exact .inl rfl

theorem delimited_members (ms : List (List U × JsonTree U)) (r : List Char) :
    Delimited (renderMembers code [','] ms ++ r) := by
  cases ms with
  | nil =>
      rw [renderMembers]
      exact .inr (.inr rfl)
  | cons m ms =>
      rw [renderMembers]
      exact .inl rfl

/-- An item is not the end of the items. -/
theorem item_ne_end {sep : List Char} (hsep : sep = [] ∨ sep = [',']) (v : JsonTree U)
    {t r : List Char} : sep ++ (render code v ++ t) ≠ ']' :: r := by
  intro h
  obtain ⟨c, cs, hc, -, hne, -⟩ := head_render code v
  rcases hsep with rfl | rfl
  · rw [hc] at h
    exact hne (List.cons.inj h).1
  · exact absurd (List.cons.inj h).1 (by decide)

theorem member_ne_end {sep : List Char} (hsep : sep = [] ∨ sep = [',']) (k : List U)
    {t r : List Char} : sep ++ (code.quote k ++ t) ≠ '}' :: r := by
  intro h
  rcases hsep with rfl | rfl
  · exact absurd (List.cons.inj h).1 (by decide)
  · exact absurd (List.cons.inj h).1 (by decide)

mutual
/-- **One reading**: a value and what follows it are told by the text. -/
theorem render_append : ∀ (v w : JsonTree U) {r s : List Char}, Delimited r → Delimited s →
    render code v ++ r = render code w ++ s → v = w ∧ r = s
  | null, w, r, s, _, _, h => by
      cases w with
      | null => exact ⟨rfl, List.append_cancel_left h⟩
      | _ => cases kind_eq code h
  | bool b, w, r, s, _, _, h => by
      cases w with
      | bool b' =>
          cases b with
          | true =>
              cases b' with
              | true => exact ⟨rfl, List.append_cancel_left h⟩
              | false => cases h
          | false =>
              cases b' with
              | true => cases h
              | false => exact ⟨rfl, List.append_cancel_left h⟩
      | _ => cases kind_eq code h
  | num t, w, r, s, hr, hs, h => by
      cases w with
      | num t' =>
          rw [render, render] at h
          obtain ⟨rfl, hrs⟩ := number_append hr hs h
          exact ⟨rfl, hrs⟩
      | _ => cases kind_eq code h
  | str u, w, r, s, _, _, h => by
      cases w with
      | str u' =>
          rw [render, render] at h
          obtain ⟨rfl, hrs⟩ := quote_append code h
          exact ⟨rfl, hrs⟩
      | _ => cases kind_eq code h
  | arr vs, w, r, s, _, _, h => by
      cases w with
      | arr ws =>
          rw [render, render] at h
          obtain ⟨rfl, hrs⟩ := renderItems_append vs ws (.inl rfl) (List.cons.inj h).2
          exact ⟨rfl, hrs⟩
      | _ => cases kind_eq code h
  | obj ms, w, r, s, _, _, h => by
      cases w with
      | obj ns =>
          rw [render, render] at h
          obtain ⟨rfl, hrs⟩ := renderMembers_append ms ns (.inl rfl) (List.cons.inj h).2
          exact ⟨rfl, hrs⟩
      | _ => cases kind_eq code h

theorem renderItems_append : ∀ (vs ws : List (JsonTree U)) {sep r s : List Char},
    (sep = [] ∨ sep = [',']) →
    renderItems code sep vs ++ r = renderItems code sep ws ++ s → vs = ws ∧ r = s
  | [], ws, sep, r, s, hsep, h => by
      cases ws with
      | nil => exact ⟨rfl, List.append_cancel_left h⟩
      | cons w ws =>
          rw [renderItems, renderItems, List.append_assoc, List.append_assoc] at h
          exact absurd h.symm (item_ne_end code hsep w)
  | v :: vs, ws, sep, r, s, hsep, h => by
      cases ws with
      | nil =>
          rw [renderItems, renderItems, List.append_assoc, List.append_assoc] at h
          exact absurd h (item_ne_end code hsep v)
      | cons w ws =>
          rw [renderItems, renderItems, List.append_assoc, List.append_assoc, List.append_assoc,
            List.append_assoc] at h
          obtain ⟨rfl, hrest⟩ := render_append v w (delimited_items code vs r)
            (delimited_items code ws s) (List.append_cancel_left h)
          obtain ⟨rfl, hrs⟩ := renderItems_append vs ws (.inr rfl) hrest
          exact ⟨rfl, hrs⟩

theorem renderMembers_append : ∀ (ms ns : List (List U × JsonTree U)) {sep r s : List Char},
    (sep = [] ∨ sep = [',']) →
    renderMembers code sep ms ++ r = renderMembers code sep ns ++ s → ms = ns ∧ r = s
  | [], ns, sep, r, s, hsep, h => by
      cases ns with
      | nil => exact ⟨rfl, List.append_cancel_left h⟩
      | cons n ns =>
          rw [renderMembers, renderMembers, List.append_assoc, List.append_assoc] at h
          exact absurd h.symm (member_ne_end code hsep n.1)
  | (k, v) :: ms, ns, sep, r, s, hsep, h => by
      cases ns with
      | nil =>
          rw [renderMembers, renderMembers, List.append_assoc, List.append_assoc] at h
          exact absurd h (member_ne_end code hsep k)
      | cons n ns =>
          obtain ⟨l, w⟩ := n
          rw [renderMembers, renderMembers, List.append_assoc, List.append_assoc,
            List.append_assoc, List.append_assoc] at h
          obtain ⟨rfl, hvalue⟩ := quote_append code (List.append_cancel_left h)
          rw [List.cons_append, List.cons_append, List.append_assoc, List.append_assoc] at hvalue
          have hvalue := (List.cons.inj hvalue).2
          obtain ⟨rfl, hrest⟩ := render_append v w (delimited_members code ms r)
            (delimited_members code ns s) hvalue
          obtain ⟨rfl, hrs⟩ := renderMembers_append ms ns (.inr rfl) hrest
          exact ⟨rfl, hrs⟩
end

theorem render_injective : Function.Injective (render code) := by
  intro v w h
  refine (render_append code v w (r := []) (s := []) trivial trivial ?_).1
  rw [h]

end JsonTree

/-! ## 4. Members in some order -/

variable {κ α : Type}

/-- Members with the same distinct keys in the same order are told by their set. -/
theorem members_eq_of_perm : ∀ {ms ns : List (κ × α)}, (ms.map Prod.fst).Nodup →
    ms.map Prod.fst = ns.map Prod.fst → ms.Perm ns → ms = ns
  | [], ns, _, _, hp => (List.nil_perm.mp hp).symm
  | (k, v) :: ms, ns, hn, hk, hp => by
      cases ns with
      | nil => cases hk
      | cons n ns =>
          obtain ⟨l, w⟩ := n
          obtain ⟨rfl, hkeys⟩ := List.cons.inj hk
          obtain ⟨hfresh, hrest⟩ := List.nodup_cons.mp hn
          have hmem : (k, v) ∈ (k, w) :: ns := hp.subset List.mem_cons_self
          rcases List.mem_cons.mp hmem with heq | hmem
          · obtain rfl := (Prod.mk.inj heq).2
            rw [members_eq_of_perm hrest hkeys ((List.perm_cons _).mp hp)]
          · have hkey : k ∈ ms.map Prod.fst := by
              rw [hkeys]
              exact List.mem_map_of_mem hmem
            exact absurd hkey hfresh

variable [DecidableEq κ]

/-- The values of the members with a key. -/
def valuesAt (k : κ) (ms : List (κ × α)) : List α :=
  ms.filterMap fun m => if m.1 = k then some m.2 else none

theorem valuesAt_perm (k : κ) {ms ns : List (κ × α)} (h : ms.Perm ns) :
    (valuesAt k ms).Perm (valuesAt k ns) := h.filterMap _

@[simp] theorem valuesAt_append (k : κ) (ms ns : List (κ × α)) :
    valuesAt k (ms ++ ns) = valuesAt k ms ++ valuesAt k ns := List.filterMap_append

/-- At most one value under a key. -/
theorem option_eq_of_perm {o o' : Option α} (h : o.toList.Perm o'.toList) : o = o' := by
  cases o with
  | none =>
      cases o' with
      | none => rfl
      | some b => cases h.length_eq
  | some a =>
      cases o' with
      | none => cases h.length_eq
      | some b => exact congrArg some (List.singleton_perm_singleton.mp h)

end NokincFactory
