import Mathlib.Data.List.Nodup
import Mathlib.Data.List.Perm.Basic
import SelfHealing.Anomaly.Encoding
import SelfHealing.Proofs.Data.Reading
import SelfHealing.Proofs.Data.Restatement
import SelfHealing.Proofs.Lookup
import SelfHealing.Query.Encoding
import SelfHealing.Registry.Encoding

/-!
Data stated in another way. Main statement: a credential, a rule, an anomaly or a query result is read as the same from
an object whose keys come in another order, in it and in the rules, samples and series inside it, and to which keys have
been added that it does not declare.
-/

namespace SelfHealing

open Data

section Labels

theorem setLabel_comm_of_ne {name other : String} (h : name ≠ other) (value shown : String) (labels : Labels) :
    setLabel name value (setLabel other shown labels) = setLabel other shown (setLabel name value labels) := by
  rcases Std.lt_trichotomy name other with hlt | heq | hgt
  · exact setLabel_comm hlt value shown labels
  · exact absurd heq h
  · exact (setLabel_comm hgt shown value labels).symm

theorem foldl_setLabel_perm {entries entries' : List (String × String)} (h : entries.Perm entries')
    (hnodup : (entries.map Prod.fst).Nodup) (labels : Labels) :
    entries.foldl (fun labels (name, value) ↦ setLabel name value labels) labels =
      entries'.foldl (fun labels (name, value) ↦ setLabel name value labels) labels := by
  refine h.foldl_eq' (fun a ha b hb labels ↦ ?_) labels
  by_cases hname : b.1 = a.1
  · rw [List.inj_on_of_nodup_map hnodup hb ha hname]
  · exact setLabel_comm_of_ne hname b.2 a.2 labels

def LabelsRestated (v w : Value) : Prop :=
  v = w ∨ ∃ fields fields', v = .object fields ∧ w = .object fields' ∧ (fields.map Prod.fst).Nodup ∧
    fields.Perm fields'

theorem entries?_perm {α : Type} {decode : Decoder α} {fields fields' : List (Key × Value)} (h : fields.Perm fields')
    {entries : List (String × α)} (hentries : entries? decode (.object fields) = some entries) :
    ∃ entries', entries? decode (.object fields') = some entries' ∧ entries.Perm entries' := by
  obtain ⟨_, hfields, hrel⟩ := entries?_eq_some.mp hentries
  obtain rfl := Value.object.inj hfields
  obtain ⟨entries', hrel', hperm⟩ := List.perm_comp_forall₂ h.symm hrel
  exact ⟨entries', entries?_eq_some.mpr ⟨fields', rfl, hrel'⟩, hperm.symm⟩

theorem names_nodup {α : Type} {decode : Decoder α} {fields : List (Key × Value)}
    (h : (fields.map Prod.fst).Nodup) {entries : List (String × α)}
    (hentries : entries? decode (.object fields) = some entries) : (entries.map Prod.fst).Nodup := by
  obtain ⟨_, hfields, hrel⟩ := entries?_eq_some.mp hentries
  obtain rfl := Value.object.inj hfields
  have hkeys : fields.map Prod.fst = (entries.map Prod.fst).map Key.name := by
    rw [List.map_map]
    exact List.forall₂_eq_eq_eq ▸
      List.forall₂_map_left_iff.mpr (List.forall₂_map_right_iff.mpr (hrel.imp fun _ _ hentry ↦ hentry.1))
  rw [hkeys] at h
  exact h.of_map Key.name

theorem decodeLabels?_restated {v w : Value} (h : LabelsRestated v w) : decodeLabels? v = decodeLabels? w := by
  obtain rfl | ⟨fields, fields', rfl, rfl, hnodup, hperm⟩ := h
  · rfl
  · unfold decodeLabels?
    cases hentries : entries? Value.asString? (.object fields) with
    | none =>
      cases hentries' : entries? Value.asString? (.object fields') with
      | none => rfl
      | some entries' =>
        obtain ⟨entries, hsome, -⟩ := entries?_perm hperm.symm hentries'
        rw [hentries] at hsome
        cases hsome
    | some entries =>
      obtain ⟨entries', hentries', hlabels⟩ := entries?_perm hperm hentries
      rw [hentries']
      exact congrArg some (foldl_setLabel_perm hlabels (names_nodup hnodup hentries) [])

end Labels

section Records

open Record

namespace Credential

def declared : List Declared :=
  [⟨encryptedField, Eq⟩, ⟨userField, Eq⟩, ⟨passwordField, Eq⟩, ⟨keyPathField, Eq⟩, ⟨keyPassphraseField, Eq⟩,
    ⟨portField, Eq⟩]

theorem decode?_restated {v w : Value} (h : Record.Restated declared v w) : decode? v = decode? w :=
  h.bind_congr (fun r s hrs ↦ by
    simp only [declared, List.forall_mem_cons] at hrs
    obtain ⟨hencrypted, huser, hpassword, hkeyPath, hkeyPassphrase, hport, -⟩ := hrs
    simp only [optional?, hencrypted.field?, huser.field?, hpassword.field?, hkeyPath.field?, hkeyPassphrase.field?,
      hport.field?]) 6

end Credential

namespace Recovery

def declared : List Declared := [⟨workloadField, Eq⟩, ⟨actionField, Eq⟩, ⟨enabledField, Eq⟩]

theorem decode?_restated {v w : Value} (h : Record.Restated declared v w) : decode? v = decode? w :=
  h.bind_congr (fun r s hrs ↦ by
    simp only [declared, List.forall_mem_cons] at hrs
    obtain ⟨hworkload, haction, henabled, -⟩ := hrs
    simp only [required?, optional?, hworkload.field?, haction.field?, henabled.field?]) 3

end Recovery

namespace Rule

def declared : List Declared :=
  [⟨nameField, Eq⟩, ⟨expressionField, Eq⟩, ⟨recoveryField, Record.Restated Recovery.declared⟩]

theorem asOption?_restated {v w : Value} (h : Record.Restated Recovery.declared v w) :
    Value.asOption? Recovery.decode? v = Value.asOption? Recovery.decode? w := by
  have hdecode := Recovery.decode?_restated h
  cases h with
  | same => rfl
  | named | listed => simp only [Value.asOption?, hdecode]

theorem decode?_restated {v w : Value} (h : Record.Restated declared v w) : decode? v = decode? w :=
  h.bind_congr (fun r s hrs ↦ by
    simp only [declared, List.forall_mem_cons] at hrs
    obtain ⟨hname, hexpression, hrecovery, -⟩ := hrs
    rw [hrecovery.optional? fun _ _ ↦ asOption?_restated]
    simp only [required?, optional?, hname.field?, hexpression.field?]) 3

end Rule

def ItemsRestated (restates : Value → Value → Prop) (v w : Value) : Prop :=
  v = w ∨ ∃ items items', v = .array items ∧ w = .array items' ∧ List.Forall₂ restates items items'

theorem asList?_restated {α : Type} {restates : Value → Value → Prop} {v w : Value} (h : ItemsRestated restates v w)
    {decode : Decoder α} (hdecode : ∀ v w, restates v w → decode v = decode w) :
    Value.asList? decode v = Value.asList? decode w := by
  obtain rfl | ⟨items, items', rfl, rfl, hitems⟩ := h
  · rfl
  · simp only [Value.asList?]
    induction hitems with
    | nil => rfl
    | cons hitem _ ih => rw [List.mapM_cons, List.mapM_cons, hdecode _ _ hitem, ih]

namespace Sample

def declared : List Declared := [⟨labelsField, LabelsRestated⟩, ⟨pointField, Eq⟩]

theorem decode?_restated {v w : Value} (h : Record.Restated declared v w) : decode? v = decode? w :=
  h.bind_congr (fun r s hrs ↦ by
    simp only [declared, List.forall_mem_cons] at hrs
    obtain ⟨hlabels, hpoint, -⟩ := hrs
    rw [hlabels.required? fun _ _ ↦ decodeLabels?_restated]
    simp only [required?, hpoint.field?]) 2

end Sample

namespace Series

def declared : List Declared := [⟨labelsField, LabelsRestated⟩, ⟨pointsField, Eq⟩]

theorem decode?_restated {v w : Value} (h : Record.Restated declared v w) : decode? v = decode? w :=
  h.bind_congr (fun r s hrs ↦ by
    simp only [declared, List.forall_mem_cons] at hrs
    obtain ⟨hlabels, hpoints, -⟩ := hrs
    rw [hlabels.required? fun _ _ ↦ decodeLabels?_restated]
    simp only [optional?, hpoints.field?]) 2

end Series

namespace QueryResult

/-- The content of a result of a type, stated in another way: its samples or its series are. Where the type is none, all
content is as good. -/
def ContentRestated (kind : Option String) : Value → Value → Prop :=
  match kind with
  | some "vector" => ItemsRestated (Record.Restated Sample.declared)
  | some "matrix" => ItemsRestated (Record.Restated Series.declared)
  | some "scalar" | some "string" => Eq
  | _ => fun _ _ ↦ True

def declared (kind : Option String) : List Declared := [⟨typeField, Eq⟩, ⟨contentField, ContentRestated kind⟩]

def typeNamed? (v : Value) : Option String := (v.member? "resultType" 0).bind Value.caseName?

def Restated (v w : Value) : Prop :=
  ∃ entries entries', v = .object entries ∧ w = .object entries' ∧
    Data.Restated (declared (typeNamed? v)) entries entries'

theorem decodeContent?_restated {kind : String} {v w : Value} (h : ContentRestated (some kind) v w) :
    decodeContent? kind v = decodeContent? kind w := by
  unfold decodeContent?
  split
  · have hitems : ItemsRestated (Record.Restated Sample.declared) v w := h
    rw [asList?_restated hitems fun _ _ ↦ Sample.decode?_restated]
  · have hitems : ItemsRestated (Record.Restated Series.declared) v w := h
    rw [asList?_restated hitems fun _ _ ↦ Series.decode?_restated]
  · rw [show v = w from h]
  · rw [show v = w from h]
  · rfl

/-- Content that is readable is read alike before and after its type. -/
theorem decode?_object {entries : List (Key × Value)} (h : (Value.object entries).readable) :
    decode? (.object entries) = ((named entries).required? typeField Value.caseName?).bind fun kind ↦
      (named entries).required? contentField (decodeContent? kind) := by
  simp only [decode?, Option.bind_eq_bind]
  congr 1
  funext kind
  unfold required?
  rcases hfield : (named entries).field? contentField with _ | _ | content
  · rfl
  · rfl
  · simp [readable_of_field? h hfield]

theorem typeNamed?_of_required? {entries : List (Key × Value)} {kind : String}
    (h : (named entries).required? typeField Value.caseName? = some kind) :
    typeNamed? (.object entries) = some kind := by
  obtain ⟨v, hfield, hv⟩ := required?_eq_some.mp h
  have hread : ofValue? 2 (.object entries) = some (named entries) := rfl
  rw [typeNamed?, field?_ofValue? hread hfield, Option.bind_some, hv]

theorem decode?_restated {v w : Value} (hv : v.readable) (hw : w.readable) (h : Restated v w) :
    decode? v = decode? w := by
  obtain ⟨entries, entries', rfl, rfl, h⟩ := h
  have htype : Agrees (named entries) (named entries') ⟨typeField, Eq⟩ := h.agrees (.head _)
  rw [decode?_object hv, decode?_object hw, ← htype.required? fun _ _ ↦ congrArg _]
  cases hkind : (named entries).required? typeField Value.caseName? with
  | none => rfl
  | some kind =>
    rw [typeNamed?_of_required? hkind] at h
    have hcontent : Agrees (named entries) (named entries') ⟨contentField, ContentRestated (some kind)⟩ :=
      h.agrees (.tail _ (.head _))
    exact hcontent.required? fun _ _ ↦ decodeContent?_restated

end QueryResult

namespace PodAnomaly

def declared : List Declared := [⟨nameField, Eq⟩, ⟨spaceField, Eq⟩, ⟨instanceField, Eq⟩]

theorem decode?_restated {v w : Value} (h : Record.Restated declared v w) : decode? v = decode? w :=
  h.bind_congr (fun r s hrs ↦ by
    simp only [declared, List.forall_mem_cons] at hrs
    obtain ⟨hname, hspace, hinstance, -⟩ := hrs
    simp only [required?, hname.field?, hspace.field?, hinstance.field?]) 3

end PodAnomaly

namespace ServiceAnomaly

def declared : List Declared := [⟨serviceField, Eq⟩, ⟨podField, Eq⟩, ⟨instanceField, Eq⟩]

theorem decode?_restated {v w : Value} (h : Record.Restated declared v w) : decode? v = decode? w :=
  h.bind_congr (fun r s hrs ↦ by
    simp only [declared, List.forall_mem_cons] at hrs
    obtain ⟨hservice, hpod, hinstance, -⟩ := hrs
    simp only [required?, hservice.field?, hpod.field?, hinstance.field?]) 3

end ServiceAnomaly

namespace Anomaly

def declaredBy (kind : Option String) : List Declared :=
  match kind.bind Workload.ofName? with
  | some .pod => PodAnomaly.declared
  | some .service => ServiceAnomaly.declared
  | none => []

def kindNamed? (v : Value) : Option String := (v.member? "kind" 0).bind Value.asString?

def Restated (v w : Value) : Prop :=
  ∃ entries entries', v = .object entries ∧ w = .object entries' ∧
    Data.Restated (⟨kindField, Eq⟩ :: declaredBy (kindNamed? v)) entries entries'

theorem kindNamed?_of_required? {entries : List (Key × Value)} {kind : String}
    (h : (named entries).required? kindField Value.asString? = some kind) :
    kindNamed? (.object entries) = some kind := by
  obtain ⟨v, hfield, hv⟩ := required?_eq_some.mp h
  have hread : ofValue? 1 (.object entries) = some (named entries) := rfl
  rw [kindNamed?, field?_ofValue? hread hfield, Option.bind_some, hv]

theorem decodeAs?_restated {workload : Workload} {kind : String} (hkind : Workload.ofName? kind = some workload)
    {entries entries' : List (Key × Value)} (h : Data.Restated (declaredBy (some kind)) entries entries') :
    decodeAs? workload (.object entries) = decodeAs? workload (.object entries') := by
  rw [declaredBy, Option.bind_some, hkind] at h
  cases workload with
  | pod => exact congrArg (Option.map pod) (PodAnomaly.decode?_restated (.named h))
  | service => exact congrArg (Option.map service) (ServiceAnomaly.decode?_restated (.named h))

theorem decode?_restated {v w : Value} (hv : v.readable) (hw : w.readable) (h : Restated v w) :
    decode? v = decode? w := by
  obtain ⟨entries, entries', rfl, rfl, h⟩ := h
  have hagrees : Agrees (named entries) (named entries') ⟨kindField, Eq⟩ := h.agrees (.head _)
  simp only [decode?, hv, hw, Bool.not_true, Bool.false_eq_true, if_false, Option.bind_eq_bind]
  rw [← hagrees.required? fun _ _ ↦ congrArg _]
  cases hkind : (named entries).required? kindField Value.asString? with
  | none => rfl
  | some kind =>
    simp only [Option.bind_some]
    cases hworkload : Workload.ofName? kind with
    | none => rfl
    | some workload =>
      rw [kindNamed?_of_required? hkind] at h
      exact decodeAs?_restated hworkload ((h.mono (List.subset_cons_self ..)).filter fun key ↦ !kindField.answers key)

end Anomaly

end Records

/-- The same is read from every statement of a value. A record with a declared key twice is refused in each of them;
only labels have to be written once each for their order not to count. Data that is held until its kind is known has
to be readable. -/
theorem decode?_indifferent :
    (∀ v w, Record.Restated Credential.declared v w → Credential.decode? v = Credential.decode? w) ∧
      (∀ v w, Record.Restated Rule.declared v w → Rule.decode? v = Rule.decode? w) ∧
      (∀ v w, v.readable → w.readable → Anomaly.Restated v w → Anomaly.decode? v = Anomaly.decode? w) ∧
      ∀ v w, v.readable → w.readable → QueryResult.Restated v w → QueryResult.decode? v = QueryResult.decode? w :=
  ⟨fun _ _ ↦ Credential.decode?_restated, fun _ _ ↦ Rule.decode?_restated,
    fun _ _ ↦ Anomaly.decode?_restated, fun _ _ ↦ QueryResult.decode?_restated⟩

section TagsLast

def labelled (labels : List (String × Value)) (others : List (String × Value)) : Value :=
  .named (others ++ [("value", .array [.number (.real ⟨0⟩), .string "1"]), ("metric", .named labels)])

/-- A result that names its type first, and the same with its type last and with keys that nobody declares. -/
def typeFirst : Value :=
  .named [("resultType", .string "vector"),
    ("result", .array [labelled [("pod", .string "api-0"), ("namespace", .string "prod")] []])]

def typeLast : Value :=
  .named [("stats", .null),
    ("result", .array [labelled [("namespace", .string "prod"), ("pod", .string "api-0")] [("values", .bool true)]]),
    ("resultType", .string "vector")]

theorem labelled_restated :
    Record.Restated Sample.declared (labelled [("pod", .string "api-0"), ("namespace", .string "prod")] [])
      (labelled [("namespace", .string "prod"), ("pod", .string "api-0")] [("values", .bool true)]) := by
  refine .named ⟨[(.name "value", .array [.number (.real ⟨0⟩), .string "1"]),
    (.name "metric", .named [("namespace", .string "prod"), ("pod", .string "api-0")])], [(.name "values", .bool true)],
    .cons ⟨rfl, ?value⟩ (.cons ⟨rfl, ?metric⟩ .nil), ?_, (List.perm_append_singleton ..).symm⟩
  case value => simp [Sample.declared, Sample.labelsField, Sample.pointField, Field.answers]
  case metric =>
    simp only [Sample.declared, Sample.labelsField, Sample.pointField, Field.answers, List.forall_mem_cons]
    exact ⟨fun _ ↦ .inr ⟨_, _, rfl, rfl, by decide, .swap ..⟩, by simp, by simp⟩
  · simp [Sample.declared, Sample.labelsField, Sample.pointField, Field.answers]

theorem typeLast_restated : QueryResult.Restated typeFirst typeLast := by
  have htype : QueryResult.typeNamed? typeFirst = some "vector" := by decide +kernel
  refine ⟨_, _, rfl, rfl, [(.name "resultType", .string "vector"), (.name "result", .array [labelled
    [("namespace", .string "prod"), ("pod", .string "api-0")] [("values", .bool true)]])], [(.name "stats", .null)],
    .cons ⟨rfl, ?type⟩ (.cons ⟨rfl, ?result⟩ .nil), ?_, List.reverse_perm [_, _, _]⟩
  case type => simp [QueryResult.declared, QueryResult.typeField, QueryResult.contentField, Field.answers]
  case result =>
    rw [htype]
    simp only [QueryResult.declared, QueryResult.typeField, QueryResult.contentField, Field.answers,
      List.forall_mem_cons]
    exact ⟨by simp, fun _ ↦ .inr ⟨_, _, rfl, rfl, .cons labelled_restated .nil⟩, by simp⟩
  · simp [QueryResult.declared, QueryResult.typeField, QueryResult.contentField, Field.answers]

def kindFirst : Value :=
  .named [("kind", .string "pod"), ("name", .string "api-0"), ("namespace", .string "prod"), ("instance", .string "")]

def kindLast : Value :=
  .named [("pod_name", .null), ("instance", .string ""), ("namespace", .string "prod"), ("name", .string "api-0"),
    ("kind", .string "pod")]

theorem kindLast_restated : Anomaly.Restated kindFirst kindLast := by
  have hdeclared : Anomaly.declaredBy (Anomaly.kindNamed? kindFirst) = PodAnomaly.declared := by rfl
  refine ⟨_, _, rfl, rfl, ?_⟩
  rw [hdeclared]
  refine .of_perm [(.name "pod_name", .null)] ?_ ?_ (List.reverse_perm [_, _, _, _, _])
  · simp [PodAnomaly.declared]
  · simp [PodAnomaly.declared, PodAnomaly.nameField, PodAnomaly.spaceField, PodAnomaly.instanceField, Anomaly.kindField,
      Field.answers]

theorem decode?_indifferent_typeLast :
    QueryResult.decode? typeLast = some (.vector [⟨[("namespace", "prod"), ("pod", "api-0")], ⟨⟨0⟩, "1"⟩⟩]) ∧
      Anomaly.decode? kindLast = some (.pod ⟨"api-0", "prod", ""⟩) := by
  obtain ⟨-, -, hanomaly, hresult⟩ := decode?_indifferent
  rw [← hresult typeFirst typeLast (by decide) (by decide) typeLast_restated,
    ← hanomaly kindFirst kindLast (by decide) (by decide) kindLast_restated]
  decide +kernel

end TagsLast

end SelfHealing
