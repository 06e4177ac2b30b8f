/-
  File:      NokincFactory/Approval/Digest.lean
  Subject:   What the encoded payload of a decision tells of the decision.

  Strings may hold any code points here, unpaired surrogates among them; what the hash makes of a
  payload is left to `TwoPerson.lean`.

  * `isoformat_injective`: the ISO text tells clock and offset;
  * `SamePayload`, `SameUtf16`: decisions that agree in what enters the payload, and those that
    agree in it once strings are written in UTF-16;
  * `encoded_eq_iff`: one encoded payload is one payload in UTF-16;
  * `samePayload_of_unpaired`: which is one payload, where no string splits a surrogate pair.
-/
import NokincFactory.Domain.Authorization
import NokincFactory.Domain.PyRecord

namespace NokincFactory

/-! ## 1. Decimals of a width -/

theorem padded_length {width n : ℕ} (hw : 0 < width) (h : n < 10 ^ width) :
    (padded width n).length = width := by
  have hle := (Nat.length_toDigits_le_iff (b := 10) (by decide) hw).mpr h
  unfold padded
  rw [List.length_append, List.length_replicate]
  omega

theorem padded_injective {width m n : ℕ} (h : padded width m = padded width n) : m = n := by
  have hread := congrArg (Nat.ofDigitChars 10 · 0) h
  unfold padded at hread
  simp only [Nat.ofDigitChars_append, Nat.ofDigitChars_replicate_zero, Nat.mul_zero,
    Nat.ofDigitChars_ten_toDigits] at hread
  exact hread

/-- A number of a width is read off the front. -/
theorem padded_append {width m n : ℕ} {r s : List Char} (hw : 0 < width) (hm : m < 10 ^ width)
    (hn : n < 10 ^ width) (h : padded width m ++ r = padded width n ++ s) : m = n ∧ r = s := by
  have hlength : (padded width m).length = (padded width n).length := by
    rw [padded_length hw hm, padded_length hw hn]
  obtain ⟨hpadded, hrest⟩ := List.append_inj h hlength
  exact ⟨padded_injective hpadded, hrest⟩

/-- A number of a width and the separator behind it. -/
theorem padded_separated {width m n : ℕ} {c : Char} {r s : List Char} (hw : 0 < width)
    (hm : m < 10 ^ width) (hn : n < 10 ^ width)
    (h : padded width m ++ c :: r = padded width n ++ c :: s) : m = n ∧ r = s := by
  obtain ⟨hmn, hrest⟩ := padded_append hw hm hn h
  exact ⟨hmn, (List.cons.inj hrest).2⟩

/-! ## 2. ISO texts -/

/-- A fraction of a second is read off the front of what does not start with a point. -/
theorem fraction_append {m n : ℕ} {r s : List Char} (hm : m < 1000000) (hn : n < 1000000)
    (hr : ∀ cs, r ≠ '.' :: cs) (hs : ∀ cs, s ≠ '.' :: cs)
    (h : (if m = 0 then [] else '.' :: padded 6 m) ++ r =
      (if n = 0 then [] else '.' :: padded 6 n) ++ s) : m = n ∧ r = s := by
  by_cases hm0 : m = 0
  · by_cases hn0 : n = 0
    · rw [if_pos hm0, if_pos hn0] at h
      exact ⟨hm0.trans hn0.symm, h⟩
    · rw [if_pos hm0, if_neg hn0] at h
      exact absurd h (hr _)
  · by_cases hn0 : n = 0
    · rw [if_neg hm0, if_pos hn0] at h
      exact absurd h.symm (hs _)
    · rw [if_neg hm0, if_neg hn0] at h
      exact padded_append (by decide) hm hn (List.cons.inj h).2

namespace Timestamp

/-- The part of an offset below the minute. -/
theorem seconds_injective {m n : ℕ}
    (h : (if m / 1000000 % 60 = 0 ∧ m % 1000000 = 0 then []
        else ':' :: (padded 2 (m / 1000000 % 60) ++
          (if m % 1000000 = 0 then [] else '.' :: padded 6 (m % 1000000)))) =
      (if n / 1000000 % 60 = 0 ∧ n % 1000000 = 0 then []
        else ':' :: (padded 2 (n / 1000000 % 60) ++
          (if n % 1000000 = 0 then [] else '.' :: padded 6 (n % 1000000))))) :
    m / 1000000 % 60 = n / 1000000 % 60 ∧ m % 1000000 = n % 1000000 := by
  by_cases hm : m / 1000000 % 60 = 0 ∧ m % 1000000 = 0
  · by_cases hn : n / 1000000 % 60 = 0 ∧ n % 1000000 = 0
    · exact ⟨hm.1.trans hn.1.symm, hm.2.trans hn.2.symm⟩
    · rw [if_pos hm, if_neg hn] at h
      cases h
  · by_cases hn : n / 1000000 % 60 = 0 ∧ n % 1000000 = 0
    · rw [if_neg hm, if_pos hn] at h
      cases h
    · rw [if_neg hm, if_neg hn] at h
      obtain ⟨hs, hfraction⟩ := padded_append (by decide) (by omega) (by omega)
        (List.cons.inj h).2
      have hrest := fraction_append (r := []) (s := []) (by omega : m % 1000000 < 1000000)
        (by omega : n % 1000000 < 1000000) nofun nofun (by rw [hfraction])
      exact ⟨hs, hrest.1⟩

theorem offsetText_injective {o o' : Int} (ho : o.natAbs < 86400000000)
    (ho' : o'.natAbs < 86400000000) (h : offsetText o = offsetText o') : o = o' := by
  unfold offsetText at h
  obtain ⟨hsign, h⟩ := List.cons.inj h
  obtain ⟨hhour, h⟩ := padded_separated (by decide) (by omega) (by omega) h
  obtain ⟨hminute, h⟩ := padded_append (by decide) (by omega) (by omega) h
  obtain ⟨hsecond, hfraction⟩ := seconds_injective h
  have habs : o.natAbs = o'.natAbs := by omega
  by_cases hneg : o < 0
  · by_cases hneg' : o' < 0
    · omega
    · rw [if_pos hneg, if_neg hneg'] at hsign
      cases hsign
  · by_cases hneg' : o' < 0
    · rw [if_neg hneg, if_pos hneg'] at hsign
      cases hsign
    · omega

theorem offset_ne_point (o : Option Int) (cs : List Char) :
    offsetPart o ≠ '.' :: cs := by
  cases o with
  | none => nofun
  | some offset =>
      intro h
      have hsign := (List.cons.inj h).1
      by_cases hneg : offset < 0
      · rw [if_pos hneg] at hsign
        cases hsign
      · rw [if_neg hneg] at hsign
        cases hsign

theorem offsetPart_injective {o o' : Option Int} (ho : ∀ x ∈ o, x.natAbs < 86400000000)
    (ho' : ∀ x ∈ o', x.natAbs < 86400000000)
    (h : offsetPart o = offsetPart o') : o = o' := by
  cases o with
  | none =>
      cases o' with
      | none => rfl
      | some y => cases h
  | some x =>
      cases o' with
      | none => cases h
      | some y => exact congrArg some (offsetText_injective (ho x rfl) (ho' y rfl) h)

theorem day_lt (t : Timestamp) : t.day < 10 ^ 2 := by
  have hday := t.dayRange.2
  have hmonth : daysInMonth t.year t.month ≤ 31 := by
    unfold daysInMonth
    split_ifs <;> decide
  omega

/-- **ISO texts**: one text is one clock and offset. -/
theorem isoformat_injective : Function.Injective isoformat := by
  intro t t' h
  unfold isoformat at h
  have hy := t.yearRange
  have hy' := t'.yearRange
  have hm := t.monthRange
  have hm' := t'.monthRange
  have hh := t.hourRange
  have hh' := t'.hourRange
  have hi := t.minuteRange
  have hi' := t'.minuteRange
  have hs := t.secondRange
  have hs' := t'.secondRange
  obtain ⟨hyear, h⟩ := padded_separated (by decide) (by omega) (by omega) h
  obtain ⟨hmonth, h⟩ := padded_separated (by decide) (by omega) (by omega) h
  obtain ⟨hday, h⟩ := padded_separated (by decide) t.day_lt t'.day_lt h
  obtain ⟨hhour, h⟩ := padded_separated (by decide) (by omega) (by omega) h
  obtain ⟨hminute, h⟩ := padded_separated (by decide) (by omega) (by omega) h
  obtain ⟨hsecond, h⟩ := padded_append (by decide) (by omega) (by omega) h
  obtain ⟨hmicro, h⟩ := fraction_append t.microsecondRange t'.microsecondRange
    (offset_ne_point t.offset) (offset_ne_point t'.offset) h
  have hoffset := offsetPart_injective t.offsetRange t'.offsetRange h
  cases t
  cases t'
  cases hyear
  cases hmonth
  cases hday
  cases hhour
  cases hminute
  cases hsecond
  cases hmicro
  cases hoffset
  rfl

end Timestamp

/-! ## 3. Payloads -/

/-- Bindings that agree once strings are written in UTF-16. -/
structure TargetBinding.SameUtf16 (t t' : TargetBinding) : Prop where
  service : utf16 t.service = utf16 t'.service
  targetRuntimeUid : utf16 t.targetRuntimeUid = utf16 t'.targetRuntimeUid
  containerId : t.containerId.map utf16 = t'.containerId.map utf16
  deploymentRevision : t.deploymentRevision.map utf16 = t'.deploymentRevision.map utf16
  imageDigest : t.imageDigest.map utf16 = t'.imageDigest.map utf16
  configFingerprint : t.configFingerprint.map utf16 = t'.configFingerprint.map utf16

namespace Authorization

/-- The decisions agree in what enters the payload; parameters are compared as dicts. -/
structure SamePayload (a b : Authorization) : Prop where
  decisionId : a.decisionId = b.decisionId
  action : a.action = b.action
  actuatorClass : a.actuatorClass = b.actuatorClass
  target : a.target = b.target
  parameters : (PyValue.dict a.parameters).sorted = (PyValue.dict b.parameters).sorted
  evidenceSnapshot : a.evidenceSnapshot = b.evidenceSnapshot
  coverageSnapshot : a.coverageSnapshot = b.coverageSnapshot
  codeModelSnapshot : a.codeModelSnapshot = b.codeModelSnapshot
  policyVersion : a.policyVersion = b.policyVersion
  authorizedAt : a.authorizedAt = b.authorizedAt
  expiresAt : a.expiresAt = b.expiresAt
  maxStalenessSeconds : a.maxStalenessSeconds = b.maxStalenessSeconds
  onExpiry : a.onExpiry = b.onExpiry

/-- The decisions agree in what enters the payload once its strings are written in UTF-16, the
members of dicts in key order. -/
structure SameUtf16 (a b : Authorization) : Prop where
  decisionId : utf16 a.decisionId = utf16 b.decisionId
  action : utf16 a.action = utf16 b.action
  actuatorClass : a.actuatorClass = b.actuatorClass
  target : a.target.SameUtf16 b.target
  parameters : (PyValue.dict a.parameters).sorted.encode = (PyValue.dict b.parameters).sorted.encode
  evidenceSnapshot : utf16 a.evidenceSnapshot = utf16 b.evidenceSnapshot
  coverageSnapshot : utf16 a.coverageSnapshot = utf16 b.coverageSnapshot
  codeModelSnapshot : a.codeModelSnapshot.map utf16 = b.codeModelSnapshot.map utf16
  policyVersion : utf16 a.policyVersion = utf16 b.policyVersion
  authorizedAt : a.authorizedAt = b.authorizedAt
  expiresAt : a.expiresAt = b.expiresAt
  maxStalenessSeconds : a.maxStalenessSeconds = b.maxStalenessSeconds
  onExpiry : a.onExpiry = b.onExpiry

end Authorization

/-! ### Bindings -/

namespace PyValue

/-- How an optional string is written. -/
def writtenStr (o : Option PyStr) : List (JsonTree Utf16Unit) :=
  (o.map fun s => JsonTree.str (utf16 s)).toList

theorem valuesAt_present_self (key : String) (o : Option PyStr) :
    valuesAt (utf16 (pyStr key)) (written (present key o)) = writtenStr o := by
  cases o with
  | none => rfl
  | some s => simp [present, written, keyed, valuesAt, writtenStr, sorted, encode]

theorem valuesAt_present_ne {key key' : String} (h : utf16 (pyStr key) ≠ utf16 (pyStr key'))
    (o : Option PyStr) : valuesAt (utf16 (pyStr key')) (written (present key o)) = [] := by
  cases o with
  | none => rfl
  | some s => simp [present, written, keyed, valuesAt, h]

/-- A field of a record whose absent fields are not dumped. -/
theorem valuesAt_fields {fields : List (String × Option PyStr)}
    (hn : (fields.map fun field => utf16 (pyStr field.1)).Nodup) {key : String}
    {o : Option PyStr} (hmem : (key, o) ∈ fields) :
    valuesAt (utf16 (pyStr key))
      (written (fields.flatMap fun field => present field.1 field.2)) = writtenStr o := by
  have hnone : ∀ {rest : List (String × Option PyStr)},
      utf16 (pyStr key) ∉ rest.map (fun field => utf16 (pyStr field.1)) →
      valuesAt (utf16 (pyStr key))
        (written (rest.flatMap fun field => present field.1 field.2)) = [] := by
    intro rest hrest
    induction rest with
    | nil => rfl
    | cons field rest ih =>
        obtain ⟨hne, hrest⟩ := not_or.mp (List.mem_cons.not.mp hrest)
        rw [List.flatMap_cons, written_append, valuesAt_append,
          valuesAt_present_ne (fun h => hne h.symm), ih hrest, List.append_nil]
  induction fields with
  | nil => cases hmem
  | cons field rest ih =>
      obtain ⟨hfresh, hrest⟩ := List.nodup_cons.mp hn
      rw [List.flatMap_cons, written_append, valuesAt_append]
      rcases List.mem_cons.mp hmem with rfl | hmem
      · rw [valuesAt_present_self, hnone hfresh, List.append_nil]
      · have hne : utf16 (pyStr field.1) ≠ utf16 (pyStr key) := by
          intro h
          exact hfresh (List.mem_map.mpr ⟨(key, o), hmem, h.symm⟩)
        rw [valuesAt_present_ne hne, List.nil_append]
        exact ih hrest hmem

theorem map_utf16_eq {o o' : Option PyStr} (h : writtenStr o = writtenStr o') :
    o.map utf16 = o'.map utf16 := by
  cases o with
  | none =>
      cases o' with
      | none => rfl
      | some s' => cases h
  | some s =>
      cases o' with
      | none => cases h
      | some s' => exact congrArg some (JsonTree.str.inj (List.cons.inj h).1)

/-- Absent or written alike. -/
theorem keyed_present (key : String) {o o' : Option PyStr} (h : o.map utf16 = o'.map utf16) :
    keyed (present key o) = keyed (present key o') := by
  cases o with
  | none =>
      cases o' with
      | none => rfl
      | some s' => cases h
  | some s =>
      cases o' with
      | none => cases h
      | some s' =>
          have hs := Option.some.inj h
          simp [present, keyed, sorted, encode, hs]

theorem keyed_append (ms ns : List (PyStr × PyValue)) :
    keyed (ms ++ ns) = keyed ms ++ keyed ns := List.map_append

end PyValue

namespace TargetBinding

open PyValue

theorem fields_nodup (t : TargetBinding) :
    (t.fields.map fun field => utf16 (pyStr field.1)).Nodup := by
  show (["service", "target_runtime_uid", "container_id", "deployment_revision", "image_digest",
    "config_fingerprint"].map fun key => utf16 (pyStr key)).Nodup
  decide

/-- Bindings with one text agree in UTF-16. -/
theorem sameUtf16_of_perm {t t' : TargetBinding}
    (h : (written t.dump).Perm (written t'.dump)) : t.SameUtf16 t' := by
  have hfield : ∀ (key : String) {o o' : Option PyStr}, (key, o) ∈ t.fields →
      (key, o') ∈ t'.fields → o.map utf16 = o'.map utf16 := by
    intro key o o' ho ho'
    have hp := valuesAt_perm (utf16 (pyStr key)) h
    unfold dump at hp
    rw [valuesAt_fields t.fields_nodup ho, valuesAt_fields t'.fields_nodup ho'] at hp
    exact map_utf16_eq (congrArg Option.toList (option_eq_of_perm hp))
  have hservice : (some t.service).map utf16 = (some t'.service).map utf16 :=
    hfield "service" (by simp [fields]) (by simp [fields])
  have huid : (some t.targetRuntimeUid).map utf16 = (some t'.targetRuntimeUid).map utf16 :=
    hfield "target_runtime_uid" (by simp [fields]) (by simp [fields])
  refine ⟨Option.some.inj hservice, Option.some.inj huid, ?_, ?_, ?_, ?_⟩
  · exact hfield "container_id" (by simp [fields]) (by simp [fields])
  · exact hfield "deployment_revision" (by simp [fields]) (by simp [fields])
  · exact hfield "image_digest" (by simp [fields]) (by simp [fields])
  · exact hfield "config_fingerprint" (by simp [fields]) (by simp [fields])

theorem keyed_dump {t t' : TargetBinding} (h : t.SameUtf16 t') :
    keyed t.dump = keyed t'.dump := by
  have hservice : (some t.service).map utf16 = (some t'.service).map utf16 :=
    congrArg some h.service
  have huid : (some t.targetRuntimeUid).map utf16 = (some t'.targetRuntimeUid).map utf16 :=
    congrArg some h.targetRuntimeUid
  unfold dump fields
  simp only [List.flatMap_cons, List.flatMap_nil, keyed_append]
  rw [keyed_present _ hservice, keyed_present _ huid, keyed_present _ h.containerId,
    keyed_present _ h.deploymentRevision, keyed_present _ h.imageDigest, keyed_present _ h.configFingerprint]

end TargetBinding

/-! ### Payloads -/

namespace PyValue

theorem encode_optional {o o' : Option PyStr} (h : o.map utf16 = o'.map utf16) :
    (Authorization.optionalStr o).sorted.encode = (Authorization.optionalStr o').sorted.encode := by
  cases o with
  | none =>
      cases o' with
      | none => rfl
      | some s' => cases h
  | some s =>
      cases o' with
      | none => cases h
      | some s' =>
          have hs := Option.some.inj h
          simp only [Authorization.optionalStr, encode_str, hs]

theorem optional_of_encode {o o' : Option PyStr}
    (h : (Authorization.optionalStr o).sorted.encode =
      (Authorization.optionalStr o').sorted.encode) : o.map utf16 = o'.map utf16 := by
  cases o with
  | none =>
      cases o' with
      | none => rfl
      | some s' =>
          simp only [Authorization.optionalStr, sorted, encode] at h
          cases h
  | some s =>
      cases o' with
      | none =>
          simp only [Authorization.optionalStr, sorted, encode] at h
          cases h
      | some s' => exact congrArg some (str_of_encode h)

end PyValue

namespace Authorization

open PyValue

theorem actuatorClass_value_injective : Function.Injective ActuatorClass.value := by
  intro c c' h
  cases c <;> cases c' <;> first | rfl | (revert h; decide)

theorem onExpiry_value_injective : Function.Injective OnExpiry.value := by
  intro e e' h
  cases e <;> cases e' <;> first | rfl | (revert h; decide)

theorem payload_nodup (a : Authorization) : ((written a.payload).map Prod.fst).Nodup := by
  show (["decision_id", "action", "actuator_class", "target", "parameters", "evidence_snapshot",
    "coverage_snapshot", "code_model_snapshot", "policy_version", "authorized_at", "expires_at",
    "max_staleness_seconds", "on_expiry"].map fun key => utf16 (pyStr key)).Nodup
  decide

/-- **One encoded payload** is one payload in UTF-16. -/
theorem encoded_eq_iff {a b : Authorization} : a.encoded = b.encoded ↔ a.SameUtf16 b := by
  constructor
  · intro h
    have hwritten : written a.payload = written b.payload :=
      members_eq_of_perm a.payload_nodup rfl (perm_of_encode_dict (dumps_eq.mp h))
    have hvalues := congrArg (List.map Prod.snd) hwritten
    obtain ⟨hid, hvalues⟩ := List.cons.inj hvalues
    obtain ⟨haction, hvalues⟩ := List.cons.inj hvalues
    obtain ⟨hclass, hvalues⟩ := List.cons.inj hvalues
    obtain ⟨htarget, hvalues⟩ := List.cons.inj hvalues
    obtain ⟨hparameters, hvalues⟩ := List.cons.inj hvalues
    obtain ⟨hevidence, hvalues⟩ := List.cons.inj hvalues
    obtain ⟨hcoverage, hvalues⟩ := List.cons.inj hvalues
    obtain ⟨hmodel, hvalues⟩ := List.cons.inj hvalues
    obtain ⟨hpolicy, hvalues⟩ := List.cons.inj hvalues
    obtain ⟨hauthorized, hvalues⟩ := List.cons.inj hvalues
    obtain ⟨hexpires, hvalues⟩ := List.cons.inj hvalues
    obtain ⟨hstaleness, hvalues⟩ := List.cons.inj hvalues
    obtain ⟨hexpiry, -⟩ := List.cons.inj hvalues
    exact {
      decisionId := str_of_encode hid
      action := str_of_encode haction
      actuatorClass := actuatorClass_value_injective
        (String.toList_inj.mp (text_of_encode hclass))
      target := TargetBinding.sameUtf16_of_perm (perm_of_encode_dict htarget)
      parameters := hparameters
      evidenceSnapshot := str_of_encode hevidence
      coverageSnapshot := str_of_encode hcoverage
      codeModelSnapshot := optional_of_encode hmodel
      policyVersion := str_of_encode hpolicy
      authorizedAt := Timestamp.isoformat_injective (text_of_encode hauthorized)
      expiresAt := Timestamp.isoformat_injective (text_of_encode hexpires)
      maxStalenessSeconds := int_of_encode hstaleness
      onExpiry := onExpiry_value_injective (String.toList_inj.mp (text_of_encode hexpiry)) }
  · intro h
    refine dumps_eq.mpr (encode_dict_congr ?_)
    unfold keyed payload
    simp only [List.map_cons, List.map_nil, encode_str, h.decisionId, h.action, h.actuatorClass,
      encode_dict_congr (TargetBinding.keyed_dump h.target), h.parameters, h.evidenceSnapshot,
      h.coverageSnapshot, encode_optional h.codeModelSnapshot, h.policyVersion, h.authorizedAt,
      h.expiresAt, h.maxStalenessSeconds, h.onExpiry]

end Authorization

/-! ## 4. Payloads without split pairs -/

namespace PyValue

mutual
/-- No string of the value splits a pair. -/
def UnpairedValue : PyValue → Prop
  | str s => Unpaired s
  | list items => UnpairedItems items
  | dict members => UnpairedMembers members
  | _ => True

def UnpairedItems : List PyValue → Prop
  | [] => True
  | v :: vs => UnpairedValue v ∧ UnpairedItems vs

def UnpairedMembers : List (PyStr × PyValue) → Prop
  | [] => True
  | (k, v) :: ms => Unpaired k ∧ UnpairedValue v ∧ UnpairedMembers ms
end

theorem unpairedMembers_iff (members : List (PyStr × PyValue)) :
    UnpairedMembers members ↔ ∀ m ∈ members, Unpaired m.1 ∧ UnpairedValue m.2 := by
  induction members with
  | nil => simp [UnpairedMembers]
  | cons m members ih =>
      obtain ⟨k, v⟩ := m
      rw [UnpairedMembers, ih, List.forall_mem_cons, and_assoc]

mutual
theorem UnpairedValue.sorted : ∀ {v : PyValue}, UnpairedValue v → UnpairedValue v.sorted
  | none, _ | bool _, _ | int _, _ | float _, _ => by
      simp only [PyValue.sorted, UnpairedValue]
  | str s, h => by
      rw [PyValue.sorted]
      exact h
  | list items, h => by
      rw [PyValue.sorted, UnpairedValue]
      rw [UnpairedValue] at h
      exact h.sorted
  | dict members, h => by
      rw [PyValue.sorted, UnpairedValue, unpairedMembers_iff]
      rw [UnpairedValue] at h
      have hs := (unpairedMembers_iff _).mp h.sorted
      exact fun m hm => hs m ((List.mem_insertionSort keyLe).mp hm)

theorem UnpairedItems.sorted : ∀ {items : List PyValue}, UnpairedItems items →
    UnpairedItems (sortedItems items)
  | [], _ => trivial
  | _ :: _, h => ⟨h.1.sorted, h.2.sorted⟩

theorem UnpairedMembers.sorted : ∀ {members : List (PyStr × PyValue)}, UnpairedMembers members →
    UnpairedMembers (sortedMembers members)
  | [], _ => trivial
  | (_, _) :: _, h => ⟨h.1, h.2.1.sorted, h.2.2.sorted⟩
end

/-- The text of an integer is not that of a float. -/
theorem intText_unmarked (n : Int) (x : PyFloat) : Json.intText n ≠ x.repr.chars := by
  intro h
  have hdigits : ∀ c ∈ Json.intText n, c.isDigit = true ∨ c = '-' := by
    intro c hc
    cases n with
    | ofNat k => exact .inl (Nat.isDigit_of_mem_toDigits (by decide) (by decide) hc)
    | negSucc k =>
        rcases List.mem_cons.mp hc with rfl | hc
        · exact .inr rfl
        · exact .inl (Nat.isDigit_of_mem_toDigits (by decide) (by decide) hc)
  rcases x.marked with hmark | hmark
  · rcases hdigits '.' (h ▸ hmark) with hd | hd <;> cases hd
  · rcases hdigits 'e' (h ▸ hmark) with hd | hd <;> cases hd

mutual
/-- Such a value is told by its text. -/
theorem encode_injective : ∀ {v w : PyValue}, UnpairedValue v → UnpairedValue w →
    v.encode = w.encode → v = w
  | none, w, _, _, h => by
      cases w <;> simp only [encode, reduceCtorEq] at h
      rfl
  | bool b, w, _, _, h => by
      cases w <;> simp only [encode, reduceCtorEq] at h
      rw [JsonTree.bool.inj h]
  | int n, w, _, _, h => by
      cases w <;> simp only [encode, reduceCtorEq] at h
      · rw [intText_injective (NumberText.mk.inj (JsonTree.num.inj h))]
      · exact absurd (congrArg NumberText.chars (JsonTree.num.inj h)) (intText_unmarked n _)
  | float x, w, _, _, h => by
      cases w <;> simp only [encode, reduceCtorEq] at h
      · exact absurd (congrArg NumberText.chars (JsonTree.num.inj h)).symm (intText_unmarked _ x)
      · obtain ⟨repr, marked⟩ := x
        cases JsonTree.num.inj h
        rfl
  | str s, w, hv, hw, h => by
      cases w <;> simp only [encode, reduceCtorEq] at h
      rw [UnpairedValue] at hv hw
      rw [utf16_injective hv hw (JsonTree.str.inj h)]
  | list items, w, hv, hw, h => by
      cases w <;> simp only [encode, reduceCtorEq] at h
      rw [UnpairedValue] at hv hw
      rw [encodeItems_injective hv hw (JsonTree.arr.inj h)]
  | dict members, w, hv, hw, h => by
      cases w <;> simp only [encode, reduceCtorEq] at h
      rw [UnpairedValue] at hv hw
      rw [encodeMembers_injective hv hw (JsonTree.obj.inj h)]

theorem encodeItems_injective : ∀ {vs ws : List PyValue}, UnpairedItems vs → UnpairedItems ws →
    encodeItems vs = encodeItems ws → vs = ws
  | [], [], _, _, _ => rfl
  | [], w :: ws, _, _, h => by
      simp only [encodeItems] at h
      cases h
  | v :: vs, [], _, _, h => by
      simp only [encodeItems] at h
      cases h
  | v :: vs, w :: ws, hv, hw, h => by
      simp only [encodeItems] at h
      obtain ⟨hhead, htail⟩ := List.cons.inj h
      rw [encode_injective hv.1 hw.1 hhead, encodeItems_injective hv.2 hw.2 htail]

theorem encodeMembers_injective : ∀ {ms ns : List (PyStr × PyValue)}, UnpairedMembers ms →
    UnpairedMembers ns → encodeMembers ms = encodeMembers ns → ms = ns
  | [], [], _, _, _ => rfl
  | [], (l, w) :: ns, _, _, h => by
      simp only [encodeMembers] at h
      cases h
  | (k, v) :: ms, [], _, _, h => by
      simp only [encodeMembers] at h
      cases h
  | (k, v) :: ms, (l, w) :: ns, hv, hw, h => by
      simp only [encodeMembers] at h
      obtain ⟨hhead, htail⟩ := List.cons.inj h
      obtain ⟨hkey, hvalue⟩ := Prod.mk.inj hhead
      rw [utf16_injective hv.1 hw.1 hkey, encode_injective hv.2.1 hw.2.1 hvalue,
        encodeMembers_injective hv.2.2 hw.2.2 htail]
end

end PyValue

theorem option_of_utf16 {o o' : Option PyStr} (ho : ∀ s ∈ o, Unpaired s)
    (ho' : ∀ s ∈ o', Unpaired s) (h : o.map utf16 = o'.map utf16) : o = o' := by
  cases o with
  | none =>
      cases o' with
      | none => rfl
      | some s' => cases h
  | some s =>
      cases o' with
      | none => cases h
      | some s' => exact congrArg some (utf16_injective (ho s rfl) (ho' s' rfl) (Option.some.inj h))

/-- No string of the binding splits a pair. -/
structure TargetBinding.NoSplit (t : TargetBinding) : Prop where
  service : Unpaired t.service
  targetRuntimeUid : Unpaired t.targetRuntimeUid
  containerId : ∀ s ∈ t.containerId, Unpaired s
  deploymentRevision : ∀ s ∈ t.deploymentRevision, Unpaired s
  imageDigest : ∀ s ∈ t.imageDigest, Unpaired s
  configFingerprint : ∀ s ∈ t.configFingerprint, Unpaired s

theorem TargetBinding.eq_of_sameUtf16 {t t' : TargetBinding} (ht : t.NoSplit) (ht' : t'.NoSplit)
    (h : t.SameUtf16 t') : t = t' := by
  have hservice := utf16_injective ht.service ht'.service h.service
  have huid := utf16_injective ht.targetRuntimeUid ht'.targetRuntimeUid h.targetRuntimeUid
  have hcontainer := option_of_utf16 ht.containerId ht'.containerId h.containerId
  have hrevision :=
    option_of_utf16 ht.deploymentRevision ht'.deploymentRevision h.deploymentRevision
  have himage := option_of_utf16 ht.imageDigest ht'.imageDigest h.imageDigest
  have hconfig := option_of_utf16 ht.configFingerprint ht'.configFingerprint h.configFingerprint
  cases t
  cases t'
  cases hservice
  cases huid
  cases hcontainer
  cases hrevision
  cases himage
  cases hconfig
  rfl

namespace Authorization

/-- No string of the payload splits a pair. -/
structure NoSplit (a : Authorization) : Prop where
  decisionId : Unpaired a.decisionId
  action : Unpaired a.action
  target : a.target.NoSplit
  parameters : (PyValue.dict a.parameters).UnpairedValue
  evidenceSnapshot : Unpaired a.evidenceSnapshot
  coverageSnapshot : Unpaired a.coverageSnapshot
  codeModelSnapshot : ∀ s ∈ a.codeModelSnapshot, Unpaired s
  policyVersion : Unpaired a.policyVersion

/-- Decoded texts: payloads that agree in UTF-16 agree. -/
theorem samePayload_of_unpaired {a b : Authorization} (ha : a.NoSplit) (hb : b.NoSplit)
    (h : a.SameUtf16 b) : a.SamePayload b where
  decisionId := utf16_injective ha.decisionId hb.decisionId h.decisionId
  action := utf16_injective ha.action hb.action h.action
  actuatorClass := h.actuatorClass
  target := TargetBinding.eq_of_sameUtf16 ha.target hb.target h.target
  parameters := PyValue.encode_injective ha.parameters.sorted hb.parameters.sorted h.parameters
  evidenceSnapshot := utf16_injective ha.evidenceSnapshot hb.evidenceSnapshot h.evidenceSnapshot
  coverageSnapshot := utf16_injective ha.coverageSnapshot hb.coverageSnapshot h.coverageSnapshot
  codeModelSnapshot :=
    option_of_utf16 ha.codeModelSnapshot hb.codeModelSnapshot h.codeModelSnapshot
  policyVersion := utf16_injective ha.policyVersion hb.policyVersion h.policyVersion
  authorizedAt := h.authorizedAt
  expiresAt := h.expiresAt
  maxStalenessSeconds := h.maxStalenessSeconds
  onExpiry := h.onExpiry

end Authorization

end NokincFactory
