/-
  File:      NokincFactory/Release/Promotion.lean
  Subject:   What is promoted has been signed, as what it is.

  * `sorted_dict`: two dicts that are one in key order;
  * `readable_sorted`: the payload of a record is a text that `loads` reads back;
  * `payload_iff`: one payload, one content;
  * `SigningLog`, `Unforged`: what the key has signed, and a record whose signature is no forgery;
  * `promotion_signed`, `promotion_of_built`: what a promotion takes to succeed.

  Signing and verifying are parameters. Unforgeability is assumed of the signatures of the
  records at hand and of those in the log, never of all signatures: a key under which every
  honest signature verifies meets it (`releaseKey`). How keys are loaded and kept is not covered.
-/
import NokincFactory.Lib.JsonText
import NokincFactory.Policy.ReleaseSigning

namespace NokincFactory.Release

/-! ## 1. Dicts in key order -/

theorem sortedMembers_eq (members : List (PyStr × Loaded)) :
    Loaded.sortedMembers members = members.map fun m => (m.1, m.2.sorted) := by
  induction members with
  | nil => rw [Loaded.sortedMembers, List.map_nil]
  | cons m members ih =>
    obtain ⟨k, v⟩ := m
    rw [Loaded.sortedMembers, ih, List.map_cons]

theorem sortedItems_str (texts : List PyStr) :
    Loaded.sortedItems (texts.map .str) = texts.map .str := by
  induction texts with
  | nil => rw [List.map_nil, Loaded.sortedItems]
  | cons s texts ih => rw [List.map_cons, Loaded.sortedItems, ih, Loaded.sorted]

/-- Key order forgets the order of the members, and nothing else. -/
theorem sorted_dict {ms ns : List (PyStr × Loaded)} (hkeys : (ms.map Prod.fst).Nodup) :
    (Loaded.dict ms).sorted = (Loaded.dict ns).sorted ↔
      (ms.map fun m => (m.1, m.2.sorted)).Perm (ns.map fun m => (m.1, m.2.sorted)) := by
  have htotal : Std.Total (PyValue.keyLe (α := Loaded)) := ⟨fun a b => le_total a.1 b.1⟩
  have htrans : IsTrans (PyStr × Loaded) PyValue.keyLe := ⟨fun _ _ _ => le_trans⟩
  rw [Loaded.sorted, Loaded.sorted, sortedMembers_eq, sortedMembers_eq, Loaded.dict.injEq]
  have hms := List.perm_insertionSort PyValue.keyLe (ms.map fun m => (m.1, m.2.sorted))
  have hns := List.perm_insertionSort PyValue.keyLe (ns.map fun m => (m.1, m.2.sorted))
  constructor
  · intro h
    rw [h] at hms
    exact hms.symm.trans hns
  · intro h
    have hperm := hms.trans (h.trans hns.symm)
    have hone : ((ms.map fun m => (m.1, m.2.sorted)).map Prod.fst).Nodup := by
      rw [List.map_map]
      exact hkeys
    refine hperm.eq_of_pairwise (fun m n hm hn hmn hnm => ?_)
      (List.pairwise_insertionSort PyValue.keyLe _) (List.pairwise_insertionSort PyValue.keyLe _)
    exact List.inj_on_of_nodup_map hone (hms.subset hm) (h.symm.subset (hns.subset hn))
      (le_antisymm hmn hnm)

theorem sorted_map (a b : StrMap) :
    a.loaded.sorted = b.loaded.sorted ↔ a.members.Perm b.members := by
  have hkeys : ((a.members.map fun e => (e.1, Loaded.str e.2)).map Prod.fst).Nodup := by
    rw [List.map_map]
    exact a.distinct
  have htext : ∀ m : StrMap, (m.members.map fun e => (e.1, Loaded.str e.2)).map
      (fun e => (e.1, e.2.sorted)) = m.members.map fun e => (e.1, Loaded.str e.2) := by
    intro m
    rw [List.map_map]
    refine List.map_congr_left fun e _ => ?_
    show (e.1, (Loaded.str e.2).sorted) = _
    rw [Loaded.sorted]
  have hinjective : Function.Injective fun e : PyStr × PyStr => (e.1, Loaded.str e.2) := by
    rintro ⟨k, v⟩ ⟨l, w⟩ h
    obtain ⟨hkey, hvalue⟩ := Prod.mk.inj h
    exact Prod.ext hkey (Loaded.str.inj hvalue)
  rw [StrMap.loaded, StrMap.loaded, sorted_dict hkeys, htext, htext]
  exact List.map_perm_map_iff hinjective

theorem sorted_str (s t : PyStr) : (Loaded.str s).sorted = (Loaded.str t).sorted ↔ s = t := by
  rw [Loaded.sorted, Loaded.sorted, Loaded.str.injEq]

theorem sorted_int (m n : ℤ) : (Loaded.int m).sorted = (Loaded.int n).sorted ↔ m = n := by
  rw [Loaded.sorted, Loaded.sorted, Loaded.int.injEq]

theorem sorted_optional (s t : Option PyStr) :
    (optionalText s).sorted = (optionalText t).sorted ↔ s = t := by
  cases s with
  | none =>
    cases t with
    | none => exact iff_of_true rfl rfl
    | some t =>
      refine iff_of_false (fun h => ?_) (fun h => (nomatch h))
      rw [optionalText, optionalText, Option.elim_none, Option.elim_some, Loaded.sorted,
        Loaded.sorted] at h
      cases h
  | some s =>
    cases t with
    | none =>
      refine iff_of_false (fun h => ?_) (fun h => (nomatch h))
      rw [optionalText, optionalText, Option.elim_none, Option.elim_some, Loaded.sorted,
        Loaded.sorted] at h
      cases h
    | some t => exact (sorted_str s t).trans (Option.some_inj).symm

theorem sorted_texts (s t : List PyStr) :
    (Loaded.list (s.map .str)).sorted = (Loaded.list (t.map .str)).sorted ↔ s = t := by
  have hinjective : Function.Injective Loaded.str := fun _ _ h => Loaded.str.inj h
  rw [Loaded.sorted, Loaded.sorted, sortedItems_str, sortedItems_str, Loaded.list.injEq]
  exact (List.map_injective_iff.mpr hinjective).eq_iff

/-! ## 2. One content -/

/-- The keys of a bundle, in the order of its fields. -/
theorem bundle_keys (b : ReleaseBundle) : b.values.map Prod.fst =
    ["release_id", "changeset_id", "changeset_version", "work_item_id", "artifacts",
      "infrastructure", "migration_bundle", "code_model_snapshot", "approved_intent_digest",
      "containment_contract_digest", "sbom_digest", "provenance_digest"].map pyStr := rfl

theorem binding_keys (d : DeploymentBinding) : d.values.map Prod.fst =
    ["release_id", "environment", "config_digest", "secret_version_refs",
      "infrastructure_parameters_digest", "feature_flag_state_digest",
      "deployment_policy_version", "approved_by"].map pyStr := rfl

theorem bundle_nodup (b : ReleaseBundle) : (b.values.map Prod.fst).Nodup := by
  rw [bundle_keys]
  decide +kernel

theorem binding_nodup (d : DeploymentBinding) : (d.values.map Prod.fst).Nodup := by
  rw [binding_keys]
  decide +kernel

/-- Records of the same fields are one in key order iff each field is. -/
theorem sorted_record {ms ns : List (PyStr × Loaded)} (hkeys : (ms.map Prod.fst).Nodup)
    (hsame : ms.map Prod.fst = ns.map Prod.fst) :
    (Loaded.dict ms).sorted = (Loaded.dict ns).sorted ↔
      ms.map (fun m => (m.1, m.2.sorted)) = ns.map fun m => (m.1, m.2.sorted) := by
  rw [sorted_dict hkeys]
  refine ⟨fun h => members_eq_of_perm ?_ ?_ h, fun h => by rw [h]⟩
  · rw [List.map_map]
    exact hkeys
  · rw [List.map_map, List.map_map]
    exact hsame

theorem sorted_bundle (a b : ReleaseBundle) :
    (Loaded.dict a.values).sorted = (Loaded.dict b.values).sorted ↔ SameBundle a b := by
  have hkeys : a.values.map Prod.fst = b.values.map Prod.fst :=
    (bundle_keys a).trans (bundle_keys b).symm
  rw [sorted_record (bundle_nodup a) hkeys]
  simp only [ReleaseBundle.values, List.map_cons, List.map_nil, List.cons.injEq, Prod.mk.injEq,
    true_and, and_true, sorted_str, sorted_int, sorted_map, sorted_optional]
  constructor
  · rintro ⟨h1, h2, h3, h4, h5, h6, h7, h8, h9, h10, h11, h12⟩
    exact ⟨h1, h2, h3, h4, h5, h6, h7, h8, h9, h10, h11, h12⟩
  · rintro ⟨h1, h2, h3, h4, h5, h6, h7, h8, h9, h10, h11, h12⟩
    exact ⟨h1, h2, h3, h4, h5, h6, h7, h8, h9, h10, h11, h12⟩

theorem sorted_binding (a b : DeploymentBinding) :
    (Loaded.dict a.values).sorted = (Loaded.dict b.values).sorted ↔ SameBinding a b := by
  have hkeys : a.values.map Prod.fst = b.values.map Prod.fst :=
    (binding_keys a).trans (binding_keys b).symm
  rw [sorted_record (binding_nodup a) hkeys, SameBinding]
  simp only [DeploymentBinding.values, List.map_cons, List.map_nil, List.cons.injEq,
    Prod.mk.injEq, true_and, and_true, sorted_str, sorted_texts, sorted_optional,
    DeploymentBinding.mk.injEq]

/-- Records are one in key order iff they are of one kind and content. -/
theorem sorted_values (x y : ReleaseEvidence) :
    (Loaded.dict x.values).sorted = (Loaded.dict y.values).sorted ↔ SameContent x y := by
  have hkinds : ∀ (b : ReleaseBundle) (d : DeploymentBinding),
      (Loaded.dict b.values).sorted ≠ (Loaded.dict d.values).sorted := by
    intro b d h
    have hlength := ((sorted_dict (bundle_nodup b)).mp h).length_eq
    have hbundle : b.values.length = 12 := rfl
    have hbinding : d.values.length = 8 := rfl
    rw [List.length_map, List.length_map] at hlength
    omega
  cases x with
  | bundle a =>
    cases y with
    | bundle b => exact sorted_bundle a b
    | binding d => exact iff_of_false (hkinds a d) id
  | binding a =>
    cases y with
    | bundle b => exact iff_of_false (fun h => hkinds b a h.symm) id
    | binding d => exact sorted_binding a d

/-! ## 3. Payloads -/

/-- What the fields of a record are. -/
inductive Field : Loaded → Prop
  | str {s : PyStr} : Field (.str s)
  | int {n : ℤ} : Field (.int n)
  | optional {s : Option PyStr} : Field (optionalText s)
  | map {m : StrMap} : Field m.loaded
  | texts {s : List PyStr} : Field (.list (s.map .str))

theorem values_fields (x : ReleaseEvidence) : ∀ m ∈ x.values, Field m.2 := by
  cases x with
  | bundle b =>
    simp only [ReleaseEvidence.values, ReleaseBundle.values, List.forall_mem_cons]
    exact ⟨.str, .str, .int, .str, .map, .map, .optional, .str, .str, .str, .str, .str,
      fun _ h => (nomatch h)⟩
  | binding d =>
    simp only [ReleaseEvidence.values, DeploymentBinding.values, List.forall_mem_cons]
    exact ⟨.str, .str, .str, .texts, .optional, .optional, .str, .str, fun _ h => (nomatch h)⟩

/-- A hook that keeps every object. -/
def keep : Hook where
  apply members := .ok (.dict members)
  call _ := 0

theorem printable_member {ms : List (PyStr × Loaded)} (h : Loaded.printableMembers ms = true) :
    ∀ m ∈ ms, m.2.printable = true := by
  induction ms with
  | nil => exact fun _ hm => (nomatch hm)
  | cons m ms ih =>
    obtain ⟨k, v⟩ := m
    rw [Loaded.printableMembers, Bool.and_eq_true] at h
    intro n hn
    rcases List.mem_cons.mp hn with rfl | hn
    · exact h.1
    · exact ih h.2 n hn

/-- A field is read back with one level of the stack. -/
theorem readable_field {v : Loaded} (h : Field v) (hprintable : v.sorted.printable = true) :
    Readable keep 1 v.sorted := by
  cases h with
  | str =>
    rw [Loaded.sorted]
    exact .str
  | int =>
    rw [Loaded.sorted] at hprintable ⊢
    rw [Loaded.printable, decide_eq_true_eq] at hprintable
    exact .int hprintable
  | @optional s =>
    cases s with
    | none =>
      rw [optionalText, Option.elim_none, Loaded.sorted]
      exact .none
    | some s =>
      rw [optionalText, Option.elim_some, Loaded.sorted]
      exact .str
  | @map m =>
    rw [StrMap.loaded, Loaded.sorted, sortedMembers_eq]
    refine .dict (fun _ => Nat.zero_le _) rfl fun n hn => ?_
    rw [List.mem_insertionSort, List.map_map] at hn
    obtain ⟨e, -, rfl⟩ := List.mem_map.mp hn
    show Readable keep 0 (Loaded.str e.2).sorted
    rw [Loaded.sorted]
    exact .str
  | texts =>
    rw [Loaded.sorted, sortedItems_str]
    refine .list (fun _ => Nat.zero_le _) fun n hn => ?_
    obtain ⟨s, -, rfl⟩ := List.mem_map.mp hn
    exact .str

theorem readable_sorted {x : ReleaseEvidence}
    (h : (Loaded.dict x.values).sorted.printable = true) :
    Readable keep 2 (Loaded.dict x.values).sorted := by
  rw [Loaded.sorted, sortedMembers_eq] at h ⊢
  rw [Loaded.printable] at h
  refine .dict (fun _ => Nat.zero_le _) rfl fun m hm => ?_
  have hprintable := printable_member h m hm
  obtain ⟨field, hfield, rfl⟩ := List.mem_map.mp ((List.mem_insertionSort _).mp hm)
  exact readable_field (values_fields x field hfield) hprintable

theorem payload_ok {x : ReleaseEvidence} {message : List Byte} :
    x.payload = .ok message ↔ (Loaded.dict x.values).sorted.printable = true ∧
      encodable (Loaded.dict x.values).sorted.compact = true ∧
      message = utf8 (Loaded.dict x.values).sorted.compact := by
  rw [ReleaseEvidence.payload]
  by_cases hprintable : (Loaded.dict x.values).sorted.printable = true
  · simp only [hprintable, not_true, if_false]
    by_cases hencodable : encodable (Loaded.dict x.values).sorted.compact = true
    · simp only [hencodable, not_true, if_false, Except.ok.injEq, true_and]
      exact eq_comm
    · simp [hencodable]
  · simp [hprintable]

/-- One payload, one kind of record and one content. -/
theorem payload_iff {x y : ReleaseEvidence} {message : List Byte} (h : x.payload = .ok message) :
    y.payload = .ok message ↔ SameContent x y := by
  rw [← sorted_values]
  constructor
  · intro hy
    obtain ⟨hx', -, hmessage⟩ := payload_ok.mp h
    obtain ⟨hy', -, hmessage'⟩ := payload_ok.mp hy
    have htext := utf8_injective (hmessage.symm.trans hmessage')
    exact compact_injective (readable_sorted hx') (readable_sorted hy') htext
  · intro hsame
    rw [payload_ok] at h ⊢
    rw [← hsame]
    exact h

/-! ## 4. Promotions -/

section

variable [Ed25519]

/-- The records that the key was asked to sign, no two contents of which have one signature. -/
structure SigningLog where
  records : List ReleaseEvidence
  apart : ∀ x ∈ records, ∀ y ∈ records, ∀ message message', x.payload = .ok message →
    y.payload = .ok message' → Ed25519.sign message = Ed25519.sign message' → message = message'

/-- The signature of a record is no forgery: where it verifies, the key made it, and was asked to
sign this content. -/
def Unforged (log : SigningLog) (x : ReleaseEvidence) : Prop :=
  ∀ signature message, decodeSignature x.signature = .ok signature → x.payload = .ok message →
    Ed25519.verify signature message = true →
      signature = Ed25519.sign message ∧ ∃ record ∈ log.records, record.payload = .ok message

omit [Ed25519] in
/-- A signature is read back. -/
theorem decodeSignature_base64Text {signature : List Byte} (h : signature.length = 64) :
    decodeSignature (base64Text signature) = .ok signature := by
  have hne : base64Text signature ≠ [] := by
    cases signature with
    | nil => cases h
    | cons a bytes =>
      cases bytes with
      | nil => cases h
      | cons b bytes => exact base64Text_ne_nil
  have hletters : (base64Text signature).all (· ∈ pyText urlsafeLetters) = true := by
    rw [List.all_eq_true]
    intro c hc
    obtain ⟨a, ha, rfl, -⟩ := base64_letter hc
    exact decide_eq_true (List.mem_map.mpr ⟨a, ha, rfl⟩)
  rw [decodeSignature, if_neg (fun h => h.elim hne fun h => h hletters), base64Bytes_base64Text]

omit [Ed25519] in
theorem mapError_ok {f : ReleaseError → ReleaseError} {x : Except ReleaseError Unit} :
    x.mapError f = .ok () ↔ x = .ok () := by
  cases x with
  | error e => exact iff_of_false (fun h => (nomatch h)) (fun h => (nomatch h))
  | ok u => exact Iff.rfl

theorem verifyEvidence_ok {x : ReleaseEvidence} :
    verifyEvidence x = .ok () ↔ ∃ signature message, decodeSignature x.signature = .ok signature ∧
      x.payload = .ok message ∧ Ed25519.verify signature message = true := by
  rw [verifyEvidence]
  by_cases hnone : x.signature = []
  · rw [if_pos hnone, hnone]
    refine iff_of_false (fun h => (nomatch h)) ?_
    rintro ⟨signature, message, hdecode, -⟩
    cases hdecode
  · rw [if_neg hnone, mapError_ok, checkSignature, Except.bind_ok]
    constructor
    · rintro ⟨signature, hdecode, h⟩
      obtain ⟨message, hpayload, h⟩ := Except.bind_ok.mp h
      exact ⟨signature, message, hdecode, hpayload, guardThat_ok.mp h⟩
    · rintro ⟨signature, message, hdecode, hpayload, h⟩
      exact ⟨signature, hdecode, Except.bind_ok.mpr ⟨message, hpayload, guardThat_pass h⟩⟩

theorem verifyPromotion_ok {bundle : ReleaseBundle} {binding : DeploymentBinding}
    {environment : PyStr} :
    verifyPromotion bundle binding environment = .ok () ↔
      (verifyEvidence (.bundle bundle) = .ok () ∧ verifyEvidence (.binding binding) = .ok ()) ∧
        bundle.releaseId = binding.releaseId ∧ binding.environment = environment := by
  rw [verifyPromotion, Except.seq_ok, mapError_ok, Except.seq_ok, Except.seq_ok, guardThat_ok,
    guardThat_ok]

/-- A record that verifies has a signature that was made for its content. -/
theorem verified_signed {log : SigningLog} {x : ReleaseEvidence} (hx : Unforged log x)
    (h : verifyEvidence x = .ok ()) : ∃ record ∈ log.records, SameContent record x ∧
      ∃ message, record.payload = .ok message ∧
        decodeSignature x.signature = .ok (Ed25519.sign message) := by
  obtain ⟨signature, message, hdecode, hpayload, hverify⟩ := verifyEvidence_ok.mp h
  obtain ⟨rfl, record, hmem, hrecord⟩ := hx signature message hdecode hpayload hverify
  exact ⟨record, hmem, (payload_iff hrecord).mp hpayload, message, hrecord, hdecode⟩

/-- A signature that was made for one record verifies on no other content. -/
theorem signature_of_one {log : SigningLog} {x record : ReleaseEvidence} (hx : Unforged log x)
    (h : verifyEvidence x = .ok ()) (hmem : record ∈ log.records) {message : List Byte}
    (hpayload : record.payload = .ok message)
    (hsignature : decodeSignature x.signature = .ok (Ed25519.sign message)) :
    SameContent record x := by
  obtain ⟨signed, hsigned, hsame, message', hpayload', hsignature'⟩ := verified_signed hx h
  have hone : Ed25519.sign message = Ed25519.sign message' :=
    Except.ok.inj (hsignature.symm.trans hsignature')
  obtain rfl := log.apart record hmem signed hsigned message message' hpayload hpayload' hone
  exact (payload_iff hpayload).mp ((payload_iff hpayload').mpr hsame)

/-- The payload tells the kind and the content of a record; a record with an unforged signature
verifies only under a signature that was made for its content, and never under one that was made
for another record; and where a promotion of two such records succeeds, the contents of both were
signed, as a bundle and as a binding, for one release and for the expected environment. -/
theorem promotion_signed :
    (∀ (x y : ReleaseEvidence) (message : List Byte), x.payload = .ok message →
      (y.payload = .ok message ↔ SameContent x y)) ∧
    (∀ (log : SigningLog) (x : ReleaseEvidence), Unforged log x → verifyEvidence x = .ok () →
      (∃ record ∈ log.records, SameContent record x ∧ ∃ message, record.payload = .ok message ∧
        decodeSignature x.signature = .ok (Ed25519.sign message)) ∧
      ∀ record ∈ log.records, ∀ message, record.payload = .ok message →
        decodeSignature x.signature = .ok (Ed25519.sign message) → SameContent record x) ∧
    ∀ (log : SigningLog) (bundle : ReleaseBundle) (binding : DeploymentBinding)
      (environment : PyStr), Unforged log (.bundle bundle) → Unforged log (.binding binding) →
      verifyPromotion bundle binding environment = .ok () →
        (∃ origin, .bundle origin ∈ log.records ∧ SameBundle origin bundle) ∧
        (∃ origin, .binding origin ∈ log.records ∧ SameBinding origin binding) ∧
        bundle.releaseId = binding.releaseId ∧ binding.environment = environment := by
  refine ⟨fun x y message h => payload_iff h, fun log x hx h => ⟨verified_signed hx h, ?_⟩,
    fun log bundle binding environment hx hy h => ?_⟩
  · intro record hmem message hpayload hsignature
    exact signature_of_one hx h hmem hpayload hsignature
  obtain ⟨⟨hbundle, hbinding⟩, hrelease, henvironment⟩ := verifyPromotion_ok.mp h
  obtain ⟨record, hmem, hsame, -⟩ := verified_signed hx hbundle
  obtain ⟨record', hmem', hsame', -⟩ := verified_signed hy hbinding
  refine ⟨?_, ?_, hrelease, henvironment⟩
  · cases record with
    | bundle origin => exact ⟨origin, hmem, hsame⟩
    | binding origin => exact hsame.elim
  · cases record' with
    | bundle origin => exact hsame'.elim
    | binding origin => exact ⟨origin, hmem', hsame'⟩

/-- Under a key whose signatures verify, what was built for one release and one environment is
promoted there. -/
theorem promotion_of_built
    (hverify : ∀ message, Ed25519.verify (Ed25519.sign message) message = true)
    (hlength : ∀ message, (Ed25519.sign message).length = 64) {source : ReleaseBundleInput}
    {bundle : ReleaseBundle} (hbundle : buildReleaseBundle source = .ok bundle)
    {releaseId environment config policy approver : PyStr} {refs : List PyStr}
    {infrastructure flags : Option PyStr} {binding : DeploymentBinding}
    (hbinding : buildDeploymentBinding releaseId environment config refs policy approver
      infrastructure flags = .ok binding) (hrelease : releaseId = pyStr source.releaseId.text) :
    verifyPromotion bundle binding environment = .ok () := by
  have hsigned : ∀ {x y : ReleaseEvidence} {signature : PyStr}, signEvidence x = .ok signature →
      y.values = x.values → y.signature = signature → verifyEvidence y = .ok () := by
    intro x y signature hsign hvalues hsignature
    obtain ⟨message, hpayload, hpure⟩ := Except.bind_ok.mp hsign
    obtain rfl := Except.pure_ok.mp hpure
    refine verifyEvidence_ok.mpr ⟨Ed25519.sign message, message, ?_, ?_, hverify message⟩
    · rw [hsignature]
      exact decodeSignature_base64Text (hlength message)
    · rw [payload_ok] at hpayload ⊢
      rw [hvalues]
      exact hpayload
  obtain ⟨signature, hsign, hpure⟩ := Except.bind_ok.mp hbundle
  obtain rfl := Except.pure_ok.mp hpure
  obtain ⟨-, hbinding⟩ := Except.seq_ok.mp hbinding
  obtain ⟨signature', hsign', hpure'⟩ := Except.bind_ok.mp hbinding
  obtain rfl := Except.pure_ok.mp hpure'
  exact verifyPromotion_ok.mpr ⟨⟨hsigned hsign rfl rfl, hsigned hsign' rfl rfl⟩, hrelease.symm, rfl⟩

end

/-! ## 5. A release for one environment -/

/-- The signatures that one key makes of the two records. -/
def shippedSignature : List Byte :=
  [180, 198, 119, 31, 112, 172, 70, 146, 74, 22, 48, 60, 83, 39, 25, 223, 243, 84, 103, 106, 136,
    205, 34, 102, 99, 35, 211, 158, 193, 193, 153, 222, 0, 147, 75, 172, 116, 47, 105, 198, 131, 50,
    37, 155, 220, 100, 24, 81, 250, 44, 134, 48, 65, 7, 181, 135, 125, 22, 117, 115, 86, 225, 36, 5]

def deployedSignature : List Byte :=
  [131, 159, 195, 49, 130, 203, 100, 11, 90, 118, 94, 132, 14, 161, 183, 67, 239, 128, 235, 89, 116,
    23, 198, 125, 3, 178, 63, 247, 241, 197, 51, 227, 103, 219, 148, 175, 166, 17, 179, 233, 186,
    129, 25, 107, 135, 100, 154, 159, 161, 17, 153, 34, 4, 206, 120, 39, 9, 64, 195, 64, 9, 55, 184,
    3]

def shipped : ReleaseBundle where
  releaseId := pyStr "r1"
  changesetId := pyStr "c1"
  changesetVersion := 1
  workItemId := pyStr "w1"
  artifacts := ⟨[(pyStr "web", pyStr "d1"), (pyStr "api", pyStr "d2")], by decide +kernel⟩
  infrastructure := ⟨[], by decide⟩
  migrationBundle := none
  codeModelSnapshot := pyStr "m"
  approvedIntentDigest := pyStr "i"
  containmentContractDigest := pyStr "k"
  sbomDigest := pyStr "s"
  provenanceDigest := pyStr "p"
  signature := base64Text shippedSignature

def deployed : DeploymentBinding where
  releaseId := pyStr "r1"
  environment := pyStr "prod"
  configDigest := pyStr "c"
  secretVersionRefs := [pyStr "secret://db"]
  infrastructureParametersDigest := none
  featureFlagStateDigest := none
  deploymentPolicyVersion := pyStr "1"
  approvedBy := pyStr "ann"
  signature := base64Text deployedSignature

/-- A key that makes these signatures, and under which what it signs verifies. -/
@[reducible] def releaseKey : Ed25519 where
  sign message :=
    if (ReleaseEvidence.bundle shipped).payload = .ok message then shippedSignature
    else deployedSignature
  verify signature message :=
    signature = if (ReleaseEvidence.bundle shipped).payload = .ok message then shippedSignature
      else deployedSignature

theorem sign_shipped {message : List Byte}
    (h : (ReleaseEvidence.bundle shipped).payload = .ok message) :
    releaseKey.sign message = shippedSignature := if_pos h

theorem sign_deployed {message : List Byte}
    (h : (ReleaseEvidence.binding deployed).payload = .ok message) :
    releaseKey.sign message = deployedSignature := by
  refine if_neg fun hshipped => ?_
  have hsame : SameContent (.bundle shipped) (.binding deployed) := (payload_iff hshipped).mp h
  exact hsame

theorem signed_apart : ∀ x ∈ [ReleaseEvidence.bundle shipped, .binding deployed],
    ∀ y ∈ [ReleaseEvidence.bundle shipped, .binding deployed], ∀ message message',
      x.payload = .ok message → y.payload = .ok message' →
        releaseKey.sign message = releaseKey.sign message' → message = message' := by
  have hapart : shippedSignature ≠ deployedSignature := by decide
  intro x hx y hy message message' hmessage hmessage' hsign
  simp only [List.mem_cons, List.not_mem_nil, or_false] at hx hy
  rcases hx with rfl | rfl
  · rcases hy with rfl | rfl
    · exact Except.ok.inj (hmessage.symm.trans hmessage')
    · exact absurd ((sign_shipped hmessage).symm.trans (hsign.trans (sign_deployed hmessage')))
        hapart
  · rcases hy with rfl | rfl
    · exact absurd ((sign_shipped hmessage').symm.trans (hsign.symm.trans (sign_deployed hmessage)))
        hapart
    · exact Except.ok.inj (hmessage.symm.trans hmessage')

/-- The key was asked to sign these two records. -/
def releaseLog : @SigningLog releaseKey :=
  @SigningLog.mk releaseKey [.bundle shipped, .binding deployed] signed_apart

theorem verify_iff {signature message : List Byte} :
    releaseKey.verify signature message = true ↔ signature = releaseKey.sign message :=
  decide_eq_true_iff

/-- What the key signs verifies, and where both records verify, both were signed, for one release
and its environment. -/
theorem promotion_signed_shipped :
    (∀ message, releaseKey.verify (releaseKey.sign message) message = true) ∧
    (∃ origin, .bundle origin ∈ [ReleaseEvidence.bundle shipped, .binding deployed] ∧
      SameBundle origin shipped) ∧
    (∃ origin, .binding origin ∈ [ReleaseEvidence.bundle shipped, .binding deployed] ∧
      SameBinding origin deployed) ∧
    shipped.releaseId = deployed.releaseId ∧ deployed.environment = pyStr "prod" := by
  let _ : Ed25519 := releaseKey
  have hverify : ∀ message, releaseKey.verify (releaseKey.sign message) message = true :=
    fun message => verify_iff.mpr rfl
  have hunforged : ∀ x ∈ [ReleaseEvidence.bundle shipped, .binding deployed],
      Unforged releaseLog x :=
    fun x hx signature message _ hpayload h => ⟨verify_iff.mp h, x, hx, hpayload⟩
  have hbundle : verifyEvidence (.bundle shipped) = .ok () := by
    have hpayload : (ReleaseEvidence.bundle shipped).payload = .ok _ :=
      payload_ok.mpr ⟨by decide +kernel, by decide +kernel, rfl⟩
    exact verifyEvidence_ok.mpr ⟨_, _, decodeSignature_base64Text rfl, hpayload,
      verify_iff.mpr (sign_shipped hpayload).symm⟩
  have hbinding : verifyEvidence (.binding deployed) = .ok () := by
    have hpayload : (ReleaseEvidence.binding deployed).payload = .ok _ :=
      payload_ok.mpr ⟨by decide +kernel, by decide +kernel, rfl⟩
    exact verifyEvidence_ok.mpr ⟨_, _, decodeSignature_base64Text rfl, hpayload,
      verify_iff.mpr (sign_deployed hpayload).symm⟩
  exact ⟨hverify, (@promotion_signed releaseKey).2.2 releaseLog shipped deployed (pyStr "prod")
    (hunforged _ List.mem_cons_self) (hunforged _ (List.mem_cons_of_mem _ List.mem_cons_self))
    (verifyPromotion_ok.mpr ⟨⟨hbundle, hbinding⟩, rfl, rfl⟩)⟩

end NokincFactory.Release
