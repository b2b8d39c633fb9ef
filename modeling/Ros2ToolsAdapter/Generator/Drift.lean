import Ros2ToolsAdapter.Generator.Agreement

/-!
# Schemas that drift apart

A header and a manifest that were generated from different directories of schemas. What the
generators take from a document is its fingerprint, and two documents have the same exactly when
they are `Alike`: the same but for layout and for the order of members, or else a collision of the
digests as far as they are used. Headers are then equal exactly when all five documents are alike
(`generate_eq_iff`), and an adapter binds the contracts of a manifest exactly when the four
documents of its endpoints are (`drift_refused`).
-/

namespace Ros2ToolsAdapter.Generator

open Interaction Python
open Artifact (Tools)
open Except (bind_eq_ok)

variable {python : Interpreter} {tools : Tools}

/-! ## Documents -/

/-- The document under the name of a schema. -/
def Document (python : Interpreter) (schema_dir : Tree) (key : SchemaKey) (schema : Value) : Prop :=
  ∃ node, openFile schema_dir (SCHEMAS key).filename = .ok node ∧
    node.readText >>= Json.loads python = .ok schema

/-- A document without floating-point numbers, of which the text does not say which number was
meant. -/
def Exact (schema : Value) : Prop := schema.all (fun _ ↦ true) (fun _ ↦ true) = true

/-- Two normal forms that differ, with digests that begin alike. -/
def Collides (python : Interpreter) (tools : Tools) (schema schema' : Value) : Prop :=
  ∃ a b, normalize python schema = .ok a ∧ normalize python schema' = .ok b ∧ a ≠ b ∧
    (tools.sha256 a).toList.take 8 = (tools.sha256 b).toList.take 8

/-- Two documents the generators do not tell apart. -/
def Alike (python : Interpreter) (tools : Tools) (schema schema' : Value) : Prop :=
  schema.sorted = schema'.sorted ∨ Collides python tools schema schema'

theorem Document.unique {schema_dir : Tree} {key : SchemaKey} {schema schema' : Value}
    (h : Document python schema_dir key schema) (h' : Document python schema_dir key schema') :
    schema = schema' := by
  obtain ⟨node, hnode, hschema⟩ := h
  obtain ⟨node', hnode', hschema'⟩ := h'
  rw [hnode] at hnode'
  obtain rfl := Except.ok.inj hnode'
  rw [hschema] at hschema'
  exact Except.ok.inj hschema'

theorem Document.within {schema_dir : Tree} {key : SchemaKey} {schema : Value}
    (h : Document python schema_dir key schema) : Json.Within python.recursionLimit schema := by
  obtain ⟨node, -, hschema⟩ := h
  obtain ⟨t, -, hloads⟩ := bind_eq_ok.mp hschema
  exact Json.within_loads hloads

/-! ## Fingerprints -/

theorem fromBytesBig_inj {xs ys : List UInt8} (hlength : xs.length = ys.length) :
    fromBytesBig xs = fromBytesBig ys ↔ xs = ys := by
  constructor
  · intro h
    have hlt (bytes : List UInt8) : ∀ d ∈ bytes.reverse.map UInt8.toNat, d < 256 := by
      intro d hd
      obtain ⟨b, -, rfl⟩ := List.mem_map.mp hd
      exact b.toNat_lt
    have hdigits := Nat.ofDigits_inj_of_len_eq (by decide : 1 < 256) (by simp [hlength]) (hlt xs)
      (hlt ys) h
    rw [List.map_inj_right fun _ _ ↦ UInt8.toNat_inj.mp] at hdigits
    exact List.reverse_inj.mp hdigits
  · rintro rfl
    rfl

private theorem fingerprint_eq_iff {a b : ByteArray} : fingerprint tools a = fingerprint tools b ↔
    (tools.sha256 a).toList.take 8 = (tools.sha256 b).toList.take 8 :=
  fromBytesBig_inj (by simp)

private theorem encodeUtf8_inj {s t : Text} {a b : ByteArray} (hs : encodeUtf8 s = .ok a)
    (ht : encodeUtf8 t = .ok b) : a = b ↔ s = t := by
  constructor
  · rintro rfl
    exact Except.ok.inj ((decodeUtf8_encodeUtf8 hs).symm.trans (decodeUtf8_encodeUtf8 ht))
  · rintro rfl
    exact Except.ok.inj (hs.symm.trans ht)

/-- Normal forms are those of documents that are equal but for the order of members. -/
theorem normalize_eq_iff {schema schema' : Value}
    (hwithin : Json.Within python.recursionLimit schema)
    (hwithin' : Json.Within python.recursionLimit schema') (hexact : Exact schema)
    (hexact' : Exact schema') {a b : ByteArray} (ha : normalize python schema = .ok a)
    (hb : normalize python schema' = .ok b) : a = b ↔ schema.sorted = schema'.sorted := by
  obtain ⟨s, hs, hencode⟩ := bind_eq_ok.mp ha
  obtain ⟨t, ht, hencode'⟩ := bind_eq_ok.mp hb
  rw [encodeUtf8_inj hencode hencode', Json.Style.dumps_eq_iff python ⟨false, true, false⟩
    (fun c _ ↦ Json.Style.keeps_of_raw rfl c) hwithin.1 hwithin'.1 hexact hexact' hwithin.2
    hwithin'.2 hs ht, Json.Style.arrange_of_sorted _ rfl, Json.Style.arrange_of_sorted _ rfl]

/-- What is made of the normal forms is the same where they are, or where it collides. -/
theorem digests_eq_iff {β : Type} (digest : ByteArray → β) {schema schema' : Value}
    {a b : ByteArray} (ha : normalize python schema = .ok a)
    (hb : normalize python schema' = .ok b) : digest a = digest b ↔
      a = b ∨ ∃ a b, normalize python schema = .ok a ∧ normalize python schema' = .ok b ∧ a ≠ b ∧
        digest a = digest b := by
  constructor
  · intro heq
    by_cases hab : a = b
    · exact Or.inl hab
    · exact Or.inr ⟨a, b, ha, hb, hab, heq⟩
  · rintro (rfl | ⟨_, _, ha', hb', -, heq⟩)
    · rfl
    · rw [ha] at ha'
      rw [hb] at hb'
      rwa [← Except.ok.inj ha', ← Except.ok.inj hb'] at heq

/-- References to one schema are told apart by the fingerprint. -/
theorem Referenced.eq_iff {schema_dir schema_dir' : Tree} {key : SchemaKey}
    {reference reference' : Reference} (h : Referenced python tools schema_dir key reference)
    (h' : Referenced python tools schema_dir' key reference') :
    reference = reference' ↔ reference.schemaFingerprint = reference'.schemaFingerprint := by
  constructor
  · rintro rfl
    rfl
  · intro hfingerprint
    obtain ⟨_, _, _, _⟩ := reference
    obtain ⟨_, _, _, _⟩ := reference'
    rw [Reference.mk.injEq]
    exact ⟨h.messageId.trans h'.messageId.symm, h.typeName.trans h'.typeName.symm,
      h.schemaVersion.trans h'.schemaVersion.symm, hfingerprint⟩

private theorem Referenced.alike_iff {schema_dir schema_dir' : Tree} {key : SchemaKey}
    {reference reference' : Reference} {schema schema' : Value}
    (h : Referenced python tools schema_dir key reference)
    (h' : Referenced python tools schema_dir' key reference')
    (hdocument : Document python schema_dir key schema)
    (hdocument' : Document python schema_dir' key schema') (hexact : Exact schema)
    (hexact' : Exact schema') :
    reference = reference' ↔ Alike python tools schema schema' := by
  obtain ⟨node, found, a, hnode, hfound, ha, hfingerprint⟩ := h.document
  obtain ⟨node', found', b, hnode', hfound', hb, hfingerprint'⟩ := h'.document
  obtain rfl := hdocument.unique ⟨node, hnode, hfound⟩
  obtain rfl := hdocument'.unique ⟨node', hnode', hfound'⟩
  have hnormal := normalize_eq_iff hdocument.within hdocument'.within hexact hexact' ha hb
  rw [h.eq_iff h', hfingerprint, hfingerprint', fingerprint_eq_iff, Alike, ← hnormal]
  exact digests_eq_iff (fun bytes ↦ (tools.sha256 bytes).toList.take 8) ha hb

/-! ## Contracts -/

/-- A contract is made of its identifier and its endpoint. -/
theorem IsCapability.unique {capability_id : Text} {value : EndpointEntry}
    {entry entry' : CapabilityEntry} (h : IsCapability python tools capability_id value entry)
    (h' : IsCapability python tools capability_id value entry') : entry = entry' := by
  obtain ⟨bytes, hbytes, hdigest⟩ := h.contractDigest
  obtain ⟨bytes', hbytes', hdigest'⟩ := h'.contractDigest
  have hbody : entry.body = entry'.body := by
    rw [CapabilityEntry.body, CapabilityEntry.body, CapabilityEntry.refValue,
      CapabilityEntry.refValue, h.id, h'.id, h.version, h'.version, h.endpoints, h'.endpoints]
  rw [← hbody, hbytes] at hbytes'
  obtain rfl := Except.ok.inj hbytes'
  obtain ⟨_, _, _, _⟩ := entry
  obtain ⟨_, _, _, _⟩ := entry'
  rw [CapabilityEntry.mk.injEq]
  exact ⟨h.id.trans h'.id.symm, h.version.trans h'.version.symm, hdigest.trans hdigest'.symm,
    h.endpoints.trans h'.endpoints.symm⟩

private theorem Endpoint.advertised_injective : Function.Injective Endpoint.advertised := by
  rintro ⟨_, _, _, _, ⟨_, _, _, _⟩, ⟨_, _, _, _⟩, _, _, ⟨_, _, _⟩⟩
    ⟨_, _, _, _, ⟨_, _, _, _⟩, ⟨_, _, _, _⟩, _, _, ⟨_, _, _⟩⟩ h
  simpa [Endpoint.advertised, schemaReference] using h

section Compiled

variable {schema_dir schema_dir' : Tree} {references references' : SchemaKey → Reference}
  {publish publish' call call' : CapabilityEntry}

private theorem Built.kPublish_eq_iff (h : Built python tools schema_dir references publish call)
    (h' : Built python tools schema_dir' references' publish' call') :
    (compiled references publish call).kPublish = (compiled references' publish' call').kPublish ↔
      references .publish_input = references' .publish_input ∧
        references .publish_output = references' .publish_output := by
  constructor
  · intro heq
    have hinput := congrArg (fun endpoint ↦ endpoint.inputSchema.fingerprint) heq
    have houtput := congrArg (fun endpoint ↦ endpoint.outputSchema.fingerprint) heq
    exact ⟨((h.referenced _).eq_iff (h'.referenced _)).mpr hinput,
      ((h.referenced _).eq_iff (h'.referenced _)).mpr houtput⟩
  · rintro ⟨hinput, houtput⟩
    have hpublish := h.publish
    rw [hinput, houtput] at hpublish
    simp only [compiled, hinput, houtput, hpublish.unique h'.publish]

private theorem Built.kService_eq_iff (h : Built python tools schema_dir references publish call)
    (h' : Built python tools schema_dir' references' publish' call') :
    (compiled references publish call).kService = (compiled references' publish' call').kService ↔
      references .service_input = references' .service_input ∧
        references .service_output = references' .service_output := by
  constructor
  · intro heq
    have hinput := congrArg (fun endpoint ↦ endpoint.inputSchema.fingerprint) heq
    have houtput := congrArg (fun endpoint ↦ endpoint.outputSchema.fingerprint) heq
    exact ⟨((h.referenced _).eq_iff (h'.referenced _)).mpr hinput,
      ((h.referenced _).eq_iff (h'.referenced _)).mpr houtput⟩
  · rintro ⟨hinput, houtput⟩
    have hcall := h.call
    rw [hinput, houtput] at hcall
    simp only [compiled, hinput, houtput, hcall.unique h'.call]

/-- Nor do the contracts of one endpoint pass for those of the other. -/
theorem Built.advertised_perm_iff (h : Built python tools schema_dir references publish call)
    (h' : Built python tools schema_dir' references' publish' call') :
    [(compiled references' publish' call').kService.advertised,
      (compiled references' publish' call').kPublish.advertised].Perm
        [(compiled references publish call).kService.advertised,
          (compiled references publish call).kPublish.advertised] ↔
      (references .service_input = references' .service_input ∧
        references .service_output = references' .service_output) ∧
      references .publish_input = references' .publish_input ∧
        references .publish_output = references' .publish_output := by
  rw [← h.kService_eq_iff h', ← h.kPublish_eq_iff h', perm_pair]
  constructor
  · rintro (heq | heq)
    · obtain ⟨hservice, hrest⟩ := List.cons_eq_cons.mp heq
      exact ⟨(Endpoint.advertised_injective hservice).symm,
        (Endpoint.advertised_injective (List.singleton_inj.mp hrest)).symm⟩
    · have hservice := Endpoint.advertised_injective (List.cons_eq_cons.mp heq).1
      have hid : utf8 call'.id = utf8 publish.id := congrArg Endpoint.capabilityId hservice
      rw [h'.call.id, h.publish.id] at hid
      exact absurd hid (by decide +kernel)
  · rintro ⟨hservice, hpublish⟩
    rw [hservice, hpublish]
    exact Or.inl rfl

/-- Two compiled contracts are one exactly when all references are. -/
theorem Built.compiled_eq_iff (h : Built python tools schema_dir references publish call)
    (h' : Built python tools schema_dir' references' publish' call') :
    compiled references publish call = compiled references' publish' call' ↔
      ∀ key, references key = references' key := by
  constructor
  · intro heq key
    have hpublish := (h.kPublish_eq_iff h').mp (congrArg Contract.kPublish heq)
    have hservice := (h.kService_eq_iff h').mp (congrArg Contract.kService heq)
    have hconfiguration := congrArg (fun contract ↦ contract.kConfiguration.fingerprint) heq
    cases key with
    | configuration => exact ((h.referenced _).eq_iff (h'.referenced _)).mpr hconfiguration
    | publish_input => exact hpublish.1
    | publish_output => exact hpublish.2
    | service_input => exact hservice.1
    | service_output => exact hservice.2
  · intro heq
    rw [Contract.mk.injEq]
    refine ⟨?_, (h.kPublish_eq_iff h').mpr ⟨heq _, heq _⟩,
      (h.kService_eq_iff h').mpr ⟨heq _, heq _⟩⟩
    simp only [compiled, heq .configuration]

end Compiled

/-- What `generate` takes its text from. -/
theorem generate_built {schema_dir : Tree} {source : Text}
    (h : ContractMetadata.generate python tools schema_dir = .ok source) :
    ∃ references publish call,
      build_contracts python tools schema_dir = .ok (references, [call, publish]) ∧
        Built python tools schema_dir references publish call := by
  obtain ⟨⟨references, contracts⟩, hcontracts, -⟩ := bind_eq_ok.mp h
  obtain ⟨publish, call, rfl, hbuilt⟩ := build_contracts_spec hcontracts
  exact ⟨references, publish, call, hcontracts, hbuilt⟩

/-! ## Two directories -/

/-- The schema of the publish request has got another title. -/
def otherTitle : SchemaKey → Text
  | .publish_input => "Request"
  | _ => "Schema"

private theorem all_titles (key : SchemaKey) :
    (oneTitle key).all ascii = true ∧ (otherTitle key).all ascii = true := by
  have hschema : ("Schema" : Text).all ascii = true := by decide +kernel
  have hrequest : ("Request" : Text).all ascii = true := by decide +kernel
  cases key with
  | publish_input => exact ⟨hschema, hrequest⟩
  | _ => exact ⟨hschema, hschema⟩

private theorem titledContent_congr {title title' : SchemaKey → Text} {key : SchemaKey}
    (h : title key = title' key) : titledContent title key = titledContent title' key := by
  rw [titledContent, titledContent, titled, titled, titledEntries, titledEntries, h]

private theorem document_titled {title : SchemaKey → Text} {key : SchemaKey}
    (htitle : (title key).all ascii = true) :
    Document Artifact.plainPython (titledDir title) key (titled title key) :=
  ⟨_, openFile_titled title key, (titled_spec htitle).1⟩

private theorem exact_titled (title : SchemaKey → Text) (key : SchemaKey) :
    Exact (titled title key) := by
  have hall (t : Text) : t.all (fun _ ↦ true) = true := List.all_eq_true.mpr fun _ _ ↦ rfl
  simp only [Exact, titled, titledEntries, Value.all, Value.allEntries, hall, Bool.and_self]

private theorem fingerprint_otherTitle :
    fingerprint hashTools (titledContent otherTitle .publish_input) ≠
    fingerprint hashTools (titledContent oneTitle .publish_input) ∧
      fingerprint hashTools (titledContent otherTitle .publish_input) ≠ 0 := by
  decide +kernel

private theorem references_otherTitle (key : SchemaKey) :
    schema_reference Artifact.plainPython hashTools (titledDir otherTitle) key =
      .ok (titledReference hashTools otherTitle key) := by
  refine schema_reference_titled (all_titles key).2 ?_
  cases key with
  | publish_input => exact fingerprint_otherTitle.2
  | _ =>
    rw [show titledContent otherTitle _ = titledContent oneTitle _ from titledContent_congr rfl]
    exact fingerprint_oneTitle _

private theorem not_alike_titles :
    ¬Alike Artifact.plainPython hashTools (titled otherTitle .publish_input)
    (titled oneTitle .publish_input) := by
  have hother := schema_reference_spec (references_otherTitle .publish_input)
  have hone := schema_reference_spec (references_oneTitle .publish_input)
  have htitles := all_titles .publish_input
  rw [← hother.alike_iff hone (document_titled htitles.2) (document_titled htitles.1)
    (exact_titled _ _) (exact_titled _ _), hother.eq_iff hone]
  exact fingerprint_otherTitle.1

/-! ## Drift -/

section Drift

variable {schema_dir schema_dir' : Tree} {documents documents' : SchemaKey → Value}

/-- **The header depends on the schemas, and on nothing else.** The headers of two directories are
the same text exactly when each document of one is alike to that of the other. -/
theorem generate_eq_iff {source source' : Text}
    (hsource : ContractMetadata.generate python tools schema_dir = .ok source)
    (hsource' : ContractMetadata.generate python tools schema_dir' = .ok source')
    (hdocuments : ∀ key, Document python schema_dir key (documents key))
    (hdocuments' : ∀ key, Document python schema_dir' key (documents' key))
    (hexact : ∀ key, Exact (documents key)) (hexact' : ∀ key, Exact (documents' key)) :
    source = source' ↔ ∀ key, Alike python tools (documents key) (documents' key) := by
  obtain ⟨references, publish, call, hcontracts, hbuilt⟩ := generate_built hsource
  obtain ⟨references', publish', call', hcontracts', hbuilt'⟩ := generate_built hsource'
  have halike (key : SchemaKey) : references key = references' key ↔
      Alike python tools (documents key) (documents' key) :=
    (hbuilt.referenced key).alike_iff (hbuilt'.referenced key) (hdocuments key) (hdocuments' key)
      (hexact key) (hexact' key)
  have hcompiled : source = source' ↔
      compiled references publish call = compiled references' publish' call' := by
    constructor
    · rintro rfl
      have hof := ofSource_generate hcontracts rfl hbuilt hsource
      have hof' := ofSource_generate hcontracts' rfl hbuilt' hsource'
      exact Option.some.inj (hof.symm.trans hof')
    · intro heq
      have hreferences := funext ((hbuilt.compiled_eq_iff hbuilt').mp heq)
      subst hreferences
      have hgenerate := generate_eq hcontracts rfl hbuilt
      have hgenerate' := generate_eq hcontracts' rfl hbuilt'
      rw [hbuilt.publish.unique hbuilt'.publish, hbuilt.call.unique hbuilt'.call,
        hsource] at hgenerate
      rw [hsource'] at hgenerate'
      exact Except.ok.inj (hgenerate.trans hgenerate'.symm)
  rw [hcompiled, hbuilt.compiled_eq_iff hbuilt']
  exact forall_congr' halike

end Drift

theorem generate_eq_iff_titles : ∃ source source',
    ContractMetadata.generate Artifact.plainPython hashTools (titledDir otherTitle) = .ok source ∧
      ContractMetadata.generate Artifact.plainPython hashTools (titledDir oneTitle) =
        .ok source' ∧ source ≠ source' := by
  obtain ⟨source, hsource⟩ := generate_of_references references_otherTitle
  obtain ⟨source', hsource'⟩ := generate_of_references references_oneTitle
  refine ⟨source, source', hsource, hsource', fun heq ↦ ?_⟩
  exact not_alike_titles ((generate_eq_iff hsource hsource'
    (fun key ↦ document_titled (all_titles key).2) (fun key ↦ document_titled (all_titles key).1)
    (exact_titled _) (exact_titled _)).mp heq .publish_input)

section Drift

variable {schema_dir : Tree} {documents documents' : SchemaKey → Value}

private theorem forall_endpoint_key {p : SchemaKey → Prop} :
    (∀ key, key ≠ .configuration → p key) ↔
      (p .service_input ∧ p .service_output) ∧ p .publish_input ∧ p .publish_output := by
  constructor
  · intro h
    exact ⟨⟨h _ nofun, h _ nofun⟩, h _ nofun, h _ nofun⟩
  · rintro ⟨⟨hservice, hservice'⟩, hpublish, hpublish'⟩ key hkey
    cases key with
    | configuration => exact absurd rfl hkey
    | publish_input => exact hpublish
    | publish_output => exact hpublish'
    | service_input => exact hservice
    | service_output => exact hservice'

/-- **An adapter refuses the contracts of schemas it was not compiled for.** The header is made from
one directory and the manifest from another; the runtime has the contracts of the manifest, in
either order. The adapter binds them exactly when the documents of both endpoints are alike and the
runtime takes both; the document of the configuration has no part in it. -/
theorem drift_refused {args : ManifestArguments} {adapter process : Value} {source : Text}
    (hsource : ContractMetadata.generate python tools schema_dir = .ok source)
    (hmanifests : build_manifests python tools args = .ok (adapter, process))
    (hdocuments : ∀ key, Document python schema_dir key (documents key))
    (hdocuments' : ∀ key, Document python args.schema_dir key (documents' key))
    (hexact : ∀ key, Exact (documents key)) (hexact' : ∀ key, Exact (documents' key)) :
    ∃ contract contracts, Contract.ofSource source = some contract ∧
      CapabilityContract.ofManifest adapter = some contracts ∧
        ∀ config : ClientConfig,
          (config.capabilities.map fun binding ↦ binding.contract.known).Perm contracts →
            ∀ run a, Prog.Returns (bindCapabilities contract (some config) true) run a →
              (a.accepted = true ↔
                (∀ key, key ≠ .configuration →
                  Alike python tools (documents key) (documents' key)) ∧
                ∀ e ∈ run, e.answer.accepted = true) := by
  obtain ⟨references, publish, call, hcontracts, hbuilt⟩ := generate_built hsource
  obtain ⟨executable, references', publish', call', trusted, hmade⟩ :=
    build_manifests_spec hmanifests
  have hbuilt' := hmade.built
  obtain rfl := hmade.adapter
  have halike (key : SchemaKey) : references key = references' key ↔
      Alike python tools (documents key) (documents' key) :=
    (hbuilt.referenced key).alike_iff (hbuilt'.referenced key) (hdocuments key) (hdocuments' key)
      (hexact key) (hexact' key)
  refine ⟨_, _, ofSource_generate hcontracts rfl hbuilt hsource,
    ofManifest_adapterValue hbuilt' _, fun config hperm run a hrun ↦ ?_⟩
  rw [accepted_iff_perm hbuilt.ids hrun, hperm.congr_left, hbuilt.advertised_perm_iff hbuilt',
    forall_endpoint_key]
  simp only [halike]

end Drift

theorem drift_refused_titles : ∃ source adapter process contract contracts,
    ContractMetadata.generate Artifact.plainPython hashTools (titledDir otherTitle) = .ok source ∧
      build_manifests Artifact.plainPython hashTools oneTitleArguments = .ok (adapter, process) ∧
        Contract.ofSource source = some contract ∧
          CapabilityContract.ofManifest adapter = some contracts ∧
            ∀ config : ClientConfig,
              (config.capabilities.map fun binding ↦ binding.contract.known).Perm contracts →
                ∀ run a, Prog.Returns (bindCapabilities contract (some config) true) run a →
                  a.accepted = false := by
  obtain ⟨source, hsource⟩ := generate_of_references references_otherTitle
  obtain ⟨adapter, process, hmanifests⟩ := build_manifests_oneTitle
  obtain ⟨contract, contracts, hcontract, hcontracts, hbind⟩ := drift_refused hsource hmanifests
    (fun key ↦ document_titled (all_titles key).2) (fun key ↦ document_titled (all_titles key).1)
    (exact_titled _) (exact_titled _)
  refine ⟨source, adapter, process, contract, contracts, hsource, hmanifests, hcontract,
    hcontracts, fun config hperm run a hrun ↦ Bool.eq_false_iff.mpr fun haccepted ↦ ?_⟩
  exact not_alike_titles (((hbind config hperm run a hrun).mp haccepted).1 .publish_input nofun)

end Ros2ToolsAdapter.Generator
