import SelfHealing.Configuration.Encoding
import SelfHealing.Proofs.Anomaly.Classification
import SelfHealing.Proofs.Data.Writing
import SelfHealing.Proofs.Net.Address

/-!
Data written and read again. Main statement: what is written for a credential, a rule, an anomaly, a query result or a
configuration is read as that value, whatever was left out in writing.
-/

namespace SelfHealing

open Data Net

section Credentials

/-- The value of a text that is left out where it is empty. -/
def stated? (text : String) : Option Value := if text = "" then none else some (.string text)

theorem encodeNonempty_eq (name text : String) : encodeNonempty name text = present [(name, stated? text)] := by
  unfold encodeNonempty stated?
  by_cases h : text = "" <;> simp [h, present]

theorem readable_stated (text : String) : ∀ v ∈ stated? text, v.readable := by
  intro v hv
  unfold stated? at hv
  split at hv
  · cases hv
  · obtain rfl := Option.some.inj hv
    rfl

theorem optional?_stated {r : Record} {f : Field} {text : String} (h : r.field? f = some (stated? text)) :
    r.optional? f "" Value.asString? = some text := by
  unfold stated? at h
  split at h
  · rw [Record.optional?_absent h]
    exact congrArg some (‹text = ""›).symm
  · rw [Record.optional?_of_field? h]
    rfl

def raised? (flag : Bool) : Option Value := if flag then some (.bool true) else none

theorem flag_eq (flag : Bool) (name : String) :
    (if flag then [(name, Value.bool true)] else []) = present [(name, raised? flag)] := by
  cases flag <;> rfl

theorem readable_raised (flag : Bool) : ∀ v ∈ raised? flag, v.readable := by
  intro v hv
  cases flag with
  | false => cases hv
  | true =>
    obtain rfl := Option.some.inj hv
    rfl

theorem optional?_raised {r : Record} {f : Field} {flag : Bool} (h : r.field? f = some (raised? flag)) :
    r.optional? f false Value.asBool? = some flag := by
  cases flag with
  | false => exact Record.optional?_absent h _ _
  | true => exact Record.optional?_of_field? h _ _

namespace Credential

def members (c : Credential) : List (String × Option Value) :=
  [("encrypted", raised? c.encrypted), ("user", stated? c.user), ("passwd", stated? c.password),
    ("pk", stated? c.keyPath), ("pkPasswd", stated? c.keyPassphrase), ("port", stated? c.port)]

theorem nodup_members (c : Credential) : (c.members.map Prod.fst).Nodup := by
  simp [members]

theorem encode_eq (c : Credential) : c.encode = .named (present c.members) := by
  have hmembers : c.members = [("encrypted", raised? c.encrypted)] ++ [("user", stated? c.user)] ++
      [("passwd", stated? c.password)] ++ [("pk", stated? c.keyPath)] ++ [("pkPasswd", stated? c.keyPassphrase)] ++
      [("port", stated? c.port)] := rfl
  rw [encode, hmembers]
  simp only [present_append, flag_eq, encodeNonempty_eq]

theorem holds_encode (c : Credential) : c.encode.Holds c.members :=
  .of_present c.encode_eq c.nodup_members

theorem decode?_of_encode (c : Credential) : decode? c.encode = some c := by
  have hfield (name : String) (place : Nat) := Record.field?_present c.nodup_members name place
  have hencrypted : (Record.written (present c.members)).field? encryptedField = some (raised? c.encrypted) :=
    hfield "encrypted" 0
  have huser : (Record.written (present c.members)).field? userField = some (stated? c.user) := hfield "user" 1
  have hpassword : (Record.written (present c.members)).field? passwordField = some (stated? c.password) :=
    hfield "passwd" 2
  have hkeyPath : (Record.written (present c.members)).field? keyPathField = some (stated? c.keyPath) := hfield "pk" 3
  have hkeyPassphrase : (Record.written (present c.members)).field? keyPassphraseField =
      some (stated? c.keyPassphrase) := hfield "pkPasswd" 4
  have hport : (Record.written (present c.members)).field? portField = some (stated? c.port) := hfield "port" 5
  rw [decode?, encode_eq, Record.ofValue?_named]
  simp only [optional?_raised hencrypted, optional?_stated huser, optional?_stated hpassword,
    optional?_stated hkeyPath, optional?_stated hkeyPassphrase, optional?_stated hport, Option.bind_eq_bind,
    Option.bind_some]

theorem readable_encode (c : Credential) : c.encode.readable := by
  rw [encode_eq]
  apply Value.readable_present
  simp only [members, List.forall_mem_cons]
  exact ⟨readable_raised _, readable_stated _, readable_stated _, readable_stated _, readable_stated _,
    readable_stated _, List.forall_mem_nil _⟩

end Credential

end Credentials

section Registries

theorem asList?_encodeAddress (addresses : List Address) :
    Value.asList? decodeAddress? (.array (addresses.map encodeAddress)) = some addresses := by
  apply Value.asList?_map
  intro a _
  exact Address.parse?_text a

theorem asList?_encodeTexts (texts : List String) : Value.asList? Value.asString? (encodeTexts texts) = some texts := by
  apply Value.asList?_map
  intro text _
  rfl

theorem readable_encodeTexts (texts : List String) : (encodeTexts texts).readable := by
  apply Value.readable_map
  intro text _
  rfl

namespace HostEntry

theorem decode?_of_encode (e : HostEntry) : decode? e.encode = some e := by
  obtain ⟨r, hread, haddresses, hroles, hoverrides, henvironment⟩ : ∃ r, Record.ofValue? 4 e.encode = some r ∧
      r.field? addressesField = some (some (.array (e.addresses.map encodeAddress))) ∧
      r.field? rolesField = some (some (encodeTexts e.roles)) ∧
      r.field? overridesField = some (some e.overrides.encode) ∧
      r.field? environmentField = some (some (encodeTexts e.environment)) := ⟨_, rfl, rfl, rfl, rfl, rfl⟩
  rw [decode?, hread]
  simp only [Record.optional?_of_field? haddresses, Record.optional?_of_field? hroles,
    Record.optional?_of_field? hoverrides, Record.optional?_of_field? henvironment, asList?_encodeAddress,
    asList?_encodeTexts, Credential.decode?_of_encode, Option.bind_eq_bind, Option.bind_some]

theorem readable_encode (e : HostEntry) : e.encode.readable := by
  have haddresses : (Value.array (e.addresses.map encodeAddress)).readable := by
    apply Value.readable_map
    intro a _
    rfl
  rw [encode, Value.readable_named]
  simp only [List.all_cons, List.all_nil, haddresses, readable_encodeTexts, Credential.readable_encode, Bool.and_true]

end HostEntry

namespace Registry

theorem ofFields?_fields (r : Registry) :
    ofFields? (r.fields.map fun (name, v) ↦ (.name name, v)) = some r := by
  have hhosts : Value.asList? HostEntry.decode? (.array (r.hosts.map HostEntry.encode)) = some r.hosts :=
    Value.asList?_map fun e _ ↦ e.decode?_of_encode
  obtain ⟨record, hread, hhostsField, hcredentialField⟩ : ∃ record,
      Record.named (r.fields.map fun (name, v) ↦ (.name name, v)) = record ∧
      record.field? hostsField = some (some (.array (r.hosts.map HostEntry.encode))) ∧
      record.field? credentialField = some (some r.credential.encode) := ⟨_, rfl, rfl, rfl⟩
  rw [ofFields?, hread]
  simp only [Record.optional?_of_field? hhostsField, Record.optional?_of_field? hcredentialField, hhosts,
    Credential.decode?_of_encode, Option.bind_eq_bind, Option.bind_some]

theorem readable_fields (r : Registry) :
    Value.fieldsReadable (r.fields.map fun (name, v) ↦ (.name name, v)) := by
  have hhosts : (Value.array (r.hosts.map HostEntry.encode)).readable := by
    apply Value.readable_map
    intro e _
    exact e.readable_encode
  have hfields : (Value.named r.fields).readable := by
    rw [Value.readable_named, fields]
    simp only [List.all_cons, List.all_nil, hhosts, Credential.readable_encode, Bool.and_true]
  exact hfields

end Registry

end Registries

section Rules

theorem Workload.decode?_name (w : Workload) : Workload.decode? (.string w.name) = some w := by
  cases w <;> rfl

namespace Recovery

def members (r : Recovery) : List (String × Option Value) :=
  [("type", some (.string r.workload.name)), ("action", some (.string r.action)), ("enable", some (.bool r.enabled))]

theorem holds_encode (r : Recovery) : r.encode.Holds r.members := by
  refine .of_present rfl ?_
  simp [members]

theorem decode?_of_encode (r : Recovery) : decode? r.encode = some r := by
  obtain ⟨record, hread, hworkload, haction, henabled⟩ : ∃ record, Record.ofValue? 3 r.encode = some record ∧
      record.field? workloadField = some (some (.string r.workload.name)) ∧
      record.field? actionField = some (some (.string r.action)) ∧
      record.field? enabledField = some (some (.bool r.enabled)) := ⟨_, rfl, rfl, rfl, rfl⟩
  rw [decode?, hread]
  simp only [Record.required?_of_field? hworkload, Record.optional?_of_field? haction,
    Record.optional?_of_field? henabled, Workload.decode?_name, Value.asString?, Value.asBool?, Option.bind_eq_bind,
    Option.bind_some]

end Recovery

namespace Rule

def members (r : Rule) : List (String × Option Value) :=
  [("name", some (.string r.name)), ("expr", some (.string r.expression)), ("recover", r.recovery.map Recovery.encode)]

theorem nodup_members (r : Rule) : (r.members.map Prod.fst).Nodup := by
  simp [members]

theorem encode_eq (r : Rule) : r.encode = .named (present r.members) := by
  rw [encode, members]
  cases r.recovery <;> rfl

theorem holds_encode (r : Rule) : r.encode.Holds r.members :=
  .of_present r.encode_eq r.nodup_members

theorem decode?_of_encode (r : Rule) : decode? r.encode = some r := by
  have hname : (Record.written (present r.members)).field? nameField = some (some (.string r.name)) :=
    Record.field?_present r.nodup_members "name" 0
  have hexpression : (Record.written (present r.members)).field? expressionField =
      some (some (.string r.expression)) := Record.field?_present r.nodup_members "expr" 1
  have hrecovery : (Record.written (present r.members)).field? recoveryField =
      some (r.recovery.map Recovery.encode) := Record.field?_present r.nodup_members "recover" 2
  have hoption : (Record.written (present r.members)).optional? recoveryField none
      (Value.asOption? Recovery.decode?) = some r.recovery := by
    cases h : r.recovery with
    | none =>
      rw [h] at hrecovery
      exact Record.optional?_absent hrecovery _ _
    | some recovery =>
      rw [h] at hrecovery
      rw [Record.optional?_of_field? hrecovery]
      exact congrArg (Option.map some) recovery.decode?_of_encode
  rw [decode?, encode_eq, Record.ofValue?_named]
  simp only [Record.required?_of_field? hname, Record.optional?_of_field? hexpression, hoption, Value.asString?,
    Option.bind_eq_bind, Option.bind_some]

end Rule

end Rules

namespace Configuration

def members (c : Configuration) : List (String × Option Value) :=
  [("hosts", some (.array (c.registry.hosts.map HostEntry.encode))), ("ssh", some c.registry.credential.encode),
    ("rules", some (.array (c.rules.map Rule.encode)))]

theorem holds_encode (c : Configuration) : c.encode.Holds c.members := by
  refine .of_present rfl ?_
  simp [members]

theorem decode?_of_encode (c : Configuration) : decode? c.encode = some c := by
  -- All that is not the rules is held until the registry is read: it is what was written for the registry.
  obtain ⟨fields, hencode, hothers, hfield⟩ : ∃ fields, c.encode = .object fields ∧
      fields.filter (fun entry ↦ !rulesField.answers entry.1) =
        c.registry.fields.map (fun (name, v) ↦ (.name name, v)) ∧
      (Record.named fields).field? rulesField = some (some (.array (c.rules.map Rule.encode))) := ⟨_, rfl, rfl, rfl⟩
  have hrules : Value.asList? Rule.decode? (.array (c.rules.map Rule.encode)) = some c.rules :=
    Value.asList?_map fun r _ ↦ r.decode?_of_encode
  rw [hencode]
  simp only [decode?, hothers, c.registry.readable_fields, Registry.ofFields?_fields,
    Record.optional?_of_field? hfield, hrules, Bool.not_true, Bool.false_eq_true, if_false, Option.bind_eq_bind,
    Option.bind_some]

end Configuration

namespace Anomaly

def members : Anomaly → List (String × Option Value)
  | pod p => [("kind", some (.string "pod")), ("name", some (.string p.name)), ("namespace", some (.string p.space)),
      ("instance", some (.string p.instanceName))]
  | service s => [("kind", some (.string "service")), ("service_name", some (.string s.service)),
      ("pod_name", some (.string s.pod)), ("instance", some (.string s.instanceName))]

theorem holds_encode (a : Anomaly) : a.encode.Holds a.members := by
  cases a with
  | pod p =>
    refine .of_present rfl ?_
    simp [members]
  | service s =>
    refine .of_present rfl ?_
    simp [members]

theorem decode?_of_encode (a : Anomaly) : decode? a.encode = some a := by
  cases a with
  | pod p => rfl
  | service s => rfl

end Anomaly

section Results

open Labels

theorem ordered_of_decodeLabels? {v : Value} {labels : Labels} (h : decodeLabels? v = some labels) :
    Ordered labels := by
  obtain ⟨entries, -, hlabels⟩ := Option.bind_eq_some_iff.mp h
  obtain rfl := Option.some.inj hlabels
  exact ordered_foldl entries List.Pairwise.nil

theorem decodeLabels?_of_encode {labels : Labels} (h : Ordered labels) :
    decodeLabels? (encodeLabels labels) = some labels := by
  have hentries : entries? Value.asString? (encodeLabels labels) = some labels := by
    apply entries?_named
    intro text
    rfl
  rw [decodeLabels?, hentries]
  exact congrArg some (foldl_setLabel_ordered h)

theorem Point.decode?_of_encode (p : Point) : decode? p.encode = some p := rfl

theorem Sample.decode?_of_encode {s : Sample} (h : Ordered s.labels) : decode? s.encode = some s := by
  obtain ⟨r, hread, hlabels, hpoint⟩ : ∃ r, Record.ofValue? 2 s.encode = some r ∧
      r.field? labelsField = some (some (encodeLabels s.labels)) ∧
      r.field? pointField = some (some s.point.encode) := ⟨_, rfl, rfl, rfl⟩
  rw [decode?, hread]
  simp only [Record.required?_of_field? hlabels, Record.required?_of_field? hpoint, decodeLabels?_of_encode h,
    Point.decode?_of_encode, Option.bind_eq_bind, Option.bind_some]

theorem ordered_of_required? {r : Record} {f : Field} {labels : Labels}
    (h : r.required? f decodeLabels? = some labels) : Ordered labels := by
  obtain ⟨v, -, hv⟩ := Record.required?_eq_some.mp h
  exact ordered_of_decodeLabels? hv

theorem Sample.ordered_of_decode? {v : Value} {s : Sample} (h : decode? v = some s) : Ordered s.labels := by
  simp only [decode?, Option.bind_eq_bind, Option.bind_eq_some_iff, Option.some.injEq] at h
  obtain ⟨r, -, labels, hlabels, point, -, rfl⟩ := h
  exact ordered_of_required? hlabels

theorem Series.decode?_of_encode {s : Series} (h : Ordered s.labels) : decode? s.encode = some s := by
  obtain ⟨r, hread, hlabels, hpoints⟩ : ∃ r, Record.ofValue? 2 s.encode = some r ∧
      r.field? labelsField = some (some (encodeLabels s.labels)) ∧
      r.field? pointsField = some (some (.array (s.points.map Point.encode))) := ⟨_, rfl, rfl, rfl⟩
  have hlist : Value.asList? Point.decode? (.array (s.points.map Point.encode)) = some s.points :=
    Value.asList?_map fun p _ ↦ p.decode?_of_encode
  rw [decode?, hread]
  simp only [Record.required?_of_field? hlabels, Record.optional?_of_field? hpoints, decodeLabels?_of_encode h, hlist,
    Option.bind_eq_bind, Option.bind_some]

theorem Series.ordered_of_decode? {v : Value} {s : Series} (h : decode? v = some s) : Ordered s.labels := by
  simp only [decode?, Option.bind_eq_bind, Option.bind_eq_some_iff, Option.some.injEq] at h
  obtain ⟨r, -, labels, hlabels, points, -, rfl⟩ := h
  exact ordered_of_required? hlabels

theorem ordered_items {α : Type} {decode : Decoder α} {labelsOf : α → Labels}
    (hdecode : ∀ {item x}, decode item = some x → Ordered (labelsOf x)) {v : Value} {xs : List α}
    (h : Value.asList? decode v = some xs) : ∀ labels ∈ xs.map labelsOf, Ordered labels := by
  rw [Value.asList?_eq_some] at h
  obtain ⟨items, -, hitems⟩ := h
  induction hitems with
  | nil => exact List.forall_mem_nil _
  | cons hitem _ ih => exact List.forall_mem_cons.mpr ⟨hdecode hitem, ih⟩

namespace QueryResult

def Ordered (q : QueryResult) : Prop := ∀ sets ∈ q.labelSets?, ∀ labels ∈ sets, Labels.Ordered labels

def members (q : QueryResult) : List (String × Option Value) :=
  [("resultType", some (.string q.kind)), ("result", some q.encodeContent)]

theorem holds_encode (q : QueryResult) : q.encode.Holds q.members := by
  refine .of_present rfl ?_
  simp [members]

theorem decodeContent?_of_encode {q : QueryResult} (h : q.Ordered) :
    decodeContent? q.kind q.encodeContent = some q := by
  cases q with
  | vector samples =>
    have hlist : Value.asList? Sample.decode? (.array (samples.map Sample.encode)) = some samples :=
      Value.asList?_map fun s hs ↦ Sample.decode?_of_encode (h _ rfl _ (List.mem_map_of_mem hs))
    exact congrArg (Option.map vector) hlist
  | matrix series =>
    have hlist : Value.asList? Series.decode? (.array (series.map Series.encode)) = some series :=
      Value.asList?_map fun s hs ↦ Series.decode?_of_encode (h _ rfl _ (List.mem_map_of_mem hs))
    exact congrArg (Option.map matrix) hlist
  | scalar point => rfl
  | text point => rfl

theorem decode?_of_encode {q : QueryResult} (h : q.Ordered) : decode? q.encode = some q :=
  decodeContent?_of_encode h

theorem ordered_of_decode? {v : Value} {q : QueryResult} (h : decode? v = some q) : q.Ordered := by
  obtain ⟨kind, content, -, hcontent⟩ := content_decoded h
  intro sets hsets
  cases q with
  | vector samples =>
    obtain rfl := Option.some.inj hsets
    exact ordered_items Sample.ordered_of_decode? (asList?_of_vector hcontent)
  | matrix series =>
    obtain rfl := Option.some.inj hsets
    exact ordered_items Series.ordered_of_decode? (asList?_of_matrix hcontent)
  | scalar point => cases hsets
  | text point => cases hsets

end QueryResult

end Results

/-- The labels of a query result are in order where it is one that can be read at all. -/
theorem encoding_roundtrip :
    (∀ c : Credential, c.encode.Holds c.members ∧ Credential.decode? c.encode = some c) ∧
      (∀ r : Recovery, r.encode.Holds r.members ∧ Recovery.decode? r.encode = some r) ∧
      (∀ r : Rule, r.encode.Holds r.members ∧ Rule.decode? r.encode = some r) ∧
      (∀ a : Anomaly, a.encode.Holds a.members ∧ Anomaly.decode? a.encode = some a) ∧
      (∀ q : QueryResult, q.Ordered → q.encode.Holds q.members ∧ QueryResult.decode? q.encode = some q) ∧
      (∀ v q, QueryResult.decode? v = some q → q.Ordered) ∧
      ∀ c : Configuration, c.encode.Holds c.members ∧ Configuration.decode? c.encode = some c :=
  ⟨fun c ↦ ⟨c.holds_encode, c.decode?_of_encode⟩, fun r ↦ ⟨r.holds_encode, r.decode?_of_encode⟩,
    fun r ↦ ⟨r.holds_encode, r.decode?_of_encode⟩, fun a ↦ ⟨a.holds_encode, a.decode?_of_encode⟩,
    fun q h ↦ ⟨q.holds_encode, QueryResult.decode?_of_encode h⟩, fun _ _ ↦ QueryResult.ordered_of_decode?,
    fun c ↦ ⟨c.holds_encode, c.decode?_of_encode⟩⟩

def twoLabels : QueryResult := .matrix [⟨[("instance", "n1"), ("pod", "api-0")], [⟨⟨0⟩, "1"⟩]⟩, ⟨[], []⟩]

def twoLabelsUnordered : Value :=
  .named [("result", .array
      [.named [("metric", .named [("pod", .string "api-0"), ("instance", .string "n1")]),
        ("values", .array [.array [.number (.real ⟨0⟩), .string "1"]])], .named [("metric", .named [])]]),
    ("resultType", .string "matrix")]

theorem encoding_roundtrip_labels :
    QueryResult.decode? twoLabelsUnordered = some twoLabels ∧
      QueryResult.decode? twoLabels.encode = some twoLabels := by
  obtain ⟨-, -, -, -, hwritten, hordered, -⟩ := encoding_roundtrip
  have hread : QueryResult.decode? twoLabelsUnordered = some twoLabels := by decide +kernel
  exact ⟨hread, (hwritten twoLabels (hordered twoLabelsUnordered twoLabels hread)).2⟩

end SelfHealing
