import Mathlib.Data.List.Nodup
import SelfHealing.Proofs.Lookup
import SelfHealing.Simulation.Machine

/-!
Which rules get a result. Main statement: of the rules that share a name, only the first gets the result under it, so
all rules get what they have coming exactly if no two of them share a name that has a result.
-/

namespace SelfHealing.Recovery

open Data

/-- The result that a file holds under a name: of several the last one counts. -/
def entryUnder? (entries : List (String × QueryResult)) (name : String) : Option QueryResult :=
  entries.reverse.lookup name

/-- What rules have coming: each whose name has an entry, in their order, with the result of that entry. -/
def due (entries : List (String × QueryResult)) (rules : List Rule) : List RuleResult :=
  rules.filterMap fun rule ↦ (entryUnder? entries rule.name).map (RuleResult.mk rule)

def firstOfName (rules : List Rule) : List Rule := rules.eraseDupsBy fun a b ↦ a.name = b.name

section FirstOfName

theorem firstOfName_cons (rule : Rule) (rest : List Rule) :
    firstOfName (rule :: rest) = rule :: firstOfName (rest.filter (·.name ≠ rule.name)) := by
  simp only [firstOfName, List.eraseDupsBy_cons, decide_eq_false_iff_not, ne_eq]

/-- Rules are taken one name after the other. -/
@[elab_as_elim]
theorem name_induction {motive : List Rule → Prop} (rules : List Rule) (nil : motive [])
    (cons : ∀ rule rest, motive (rest.filter (·.name ≠ rule.name)) → motive (rule :: rest)) : motive rules := by
  match rules with
  | [] => exact nil
  | rule :: rest => exact cons rule rest (name_induction _ nil cons)
termination_by rules.length
decreasing_by exact Nat.lt_succ_of_le (List.length_filter_le ..)

theorem firstOfName_sublist (rules : List Rule) : (firstOfName rules).Sublist rules := by
  induction rules using name_induction with
  | nil => exact .slnil
  | cons rule rest ih =>
    rw [firstOfName_cons]
    exact (ih.trans List.filter_sublist).cons_cons rule

theorem nodup_name_firstOfName (rules : List Rule) : ((firstOfName rules).map Rule.name).Nodup := by
  induction rules using name_induction with
  | nil => exact .nil
  | cons rule rest ih =>
    rw [firstOfName_cons, List.map_cons, List.nodup_cons]
    refine ⟨fun h ↦ ?_, ih⟩
    obtain ⟨later, hlater, hname⟩ := List.mem_map.mp h
    have hother := (List.mem_filter.mp ((firstOfName_sublist _).subset hlater)).2
    exact of_decide_eq_true hother hname

end FirstOfName

namespace Results

theorem lookup_ofEntries (entries : List (String × QueryResult)) (name : String) :
    (ofEntries entries).lookup name = entryUnder? entries name := by
  unfold entryUnder?
  induction entries with
  | nil => rfl
  | cons entry rest ih =>
    obtain ⟨own, result⟩ := entry
    rw [List.reverse_cons, List.lookup_append, ofEntries, lookup_cons_if]
    by_cases hname : name = own
    · subst hname
      by_cases hlater : rest.any (·.1 = name)
      · -- The entry does not count, for a later one has its name.
        obtain ⟨later, hmem, hown⟩ := List.any_eq_true.mp hlater
        have hfound : rest.reverse.lookup name ≠ none := fun h ↦
          ne_of_lookup_eq_none h (List.mem_reverse.mpr hmem) (of_decide_eq_true hown)
        obtain ⟨found, hfound⟩ := Option.ne_none_iff_exists'.mp hfound
        rw [if_pos hlater, ih, hfound, Option.some_or]
      · have hnone : rest.reverse.lookup name = none := lookup_eq_none_of_forall fun later hmem h ↦
          hlater (List.any_eq_true.mpr ⟨later, List.mem_reverse.mp hmem, decide_eq_true h⟩)
        rw [if_neg hlater, lookup_cons_if, if_pos rfl, if_pos rfl, hnone, Option.none_or]
    · rw [if_neg hname, List.lookup_nil, Option.or_none, ← ih]
      split
      · rfl
      · rw [lookup_cons_if, if_neg hname]

theorem erase_of_lookup_eq_none {results : Results} {name : String} (h : results.lookup name = none) :
    erase name results = results :=
  List.filter_eq_self.mpr fun _ hentry ↦ decide_eq_true (ne_of_lookup_eq_none h hentry)

theorem join_erase (name : String) (rules : List Rule) (results : Results) :
    join rules (erase name results) = join (rules.filter (·.name ≠ name)) results := by
  induction rules generalizing results with
  | nil => rfl
  | cons rule rest ih =>
    have hlookup : (erase name results).lookup rule.name =
        if decide (rule.name ≠ name) then results.lookup rule.name else none :=
      lookup_filter (fun other ↦ decide (other ≠ name)) results rule.name
    by_cases hname : rule.name = name
    · rw [if_neg (by simpa using hname)] at hlookup
      rw [List.filter_cons_of_neg (by simpa using hname), ← ih, join, hlookup]
    · rw [if_pos (by simpa using hname)] at hlookup
      have hcomm : erase rule.name (erase name results) = erase name (erase rule.name results) :=
        List.filter_comm ..
      rw [List.filter_cons_of_pos (by simpa using hname), join, join, hlookup]
      cases results.lookup rule.name with
      | none => exact ih results
      | some result => simp only [hcomm, ih]

theorem join_eq (rules : List Rule) (results : Results) :
    join rules results =
      (firstOfName rules).filterMap fun rule ↦ (results.lookup rule.name).map (RuleResult.mk rule) := by
  induction rules using name_induction with
  | nil => rfl
  | cons rule rest ih =>
    rw [firstOfName_cons, List.filterMap_cons, ← ih, ← join_erase, join]
    cases h : results.lookup rule.name with
    | none => rw [erase_of_lookup_eq_none h]; rfl
    | some result => rfl

theorem join_ofEntries (entries : List (String × QueryResult)) (rules : List Rule) :
    join rules (ofEntries entries) = due entries (firstOfName rules) := by
  simp only [join_eq, lookup_ofEntries, due]

end Results

section Due

variable {entries : List (String × QueryResult)}

theorem map_name_due (rules : List Rule) :
    (due entries rules).map (·.rule.name) =
      (rules.filter fun rule ↦ (entryUnder? entries rule.name).isSome).map Rule.name := by
  unfold due
  induction rules with
  | nil => rfl
  | cons rule rest ih =>
    rw [List.filterMap_cons, List.filter_cons]
    cases entryUnder? entries rule.name <;> simp [ih]

theorem due_filter {name : String} {rules : List Rule}
    (h : ∀ rule ∈ rules, rule.name = name → entryUnder? entries name = none) :
    due entries (rules.filter (·.name ≠ name)) = due entries rules := by
  unfold due
  rw [List.filterMap_filter]
  refine List.filterMap_congr fun rule hrule ↦ ?_
  by_cases hname : rule.name = name
  · simp [hname, h rule hrule hname]
  · simp [hname]

theorem due_firstOfName {rules : List Rule}
    (h : ((rules.filter fun rule ↦ (entryUnder? entries rule.name).isSome).map Rule.name).Nodup) :
    due entries (firstOfName rules) = due entries rules := by
  induction rules using name_induction with
  | nil => rfl
  | cons rule rest ih =>
    have hothers := h.sublist (((List.sublist_cons_self rule rest).filter _).map _)
    have halone : ∀ later ∈ rest, later.name = rule.name → entryUnder? entries rule.name = none := by
      intro later hlater hname
      by_contra hentry
      have hsome : (entryUnder? entries rule.name).isSome := Option.isSome_iff_ne_none.mpr hentry
      rw [List.filter_cons, if_pos hsome, List.map_cons, List.nodup_cons] at h
      exact h.1 (List.mem_map.mpr ⟨later, List.mem_filter.mpr ⟨hlater, by rwa [hname]⟩, hname⟩)
    have hrest := ih (hothers.sublist ((List.filter_sublist.filter _).map _))
    rw [due_filter halone] at hrest
    rw [firstOfName_cons]
    unfold due at hrest ⊢
    rw [List.filterMap_cons, List.filterMap_cons, hrest]

theorem due_firstOfName_eq_iff (rules : List Rule) :
    due entries (firstOfName rules) = due entries rules ↔
      ((rules.filter fun rule ↦ (entryUnder? entries rule.name).isSome).map Rule.name).Nodup := by
  refine ⟨fun h ↦ ?_, due_firstOfName⟩
  have hfirst := nodup_name_firstOfName rules
  rw [← map_name_due, ← h, map_name_due]
  exact hfirst.sublist (List.filter_sublist.map _)

theorem due_known {rules served : List Rule} (h : served ⊆ rules) :
    due (entries.filter fun entry ↦ rules.any (·.name = entry.1)) served = due entries served := by
  -- Only the names of rules are looked up.
  refine List.filterMap_congr fun rule hrule ↦ ?_
  have hknown : rules.any (·.name = rule.name) := List.any_eq_true.mpr ⟨rule, h hrule, decide_eq_true rfl⟩
  rw [entryUnder?, ← List.filter_reverse, lookup_filter (fun name ↦ rules.any (·.name = name)), if_pos hknown]
  rfl

end Due

open Program in
/-- The rules are given the results of a file, each result to the first rule of its name and in the order of the rules;
what stands under other names counts for nothing. All rules get what they have coming exactly if no two of them share a
name that has a result. -/
theorem results_given_once {m : Type → Type} (mc : Machine m) (rules : List Rule) {path text : String} {file : Value}
    {entries : List (String × QueryResult)} (htext : mc.file? path = some text) (hfile : Json.parse? text = some file)
    (hentries : entries? QueryResult.decode? file = some entries) :
    mc.results rules path = .ok (due entries (firstOfName rules)) ∧
      (mc.results rules path = .ok (due entries rules) ↔
        ((rules.filter fun rule ↦ (entryUnder? entries rule.name).isSome).map Rule.name).Nodup) ∧
      mc.results rules path =
        .ok (due (entries.filter fun entry ↦ rules.any (·.name = entry.1)) (firstOfName rules)) := by
  have hparse : Results.parse? text = some (.ofEntries entries) := by
    simp only [Results.parse?, Results.decode?, hfile, hentries, Option.bind_some, Option.map_some]
  have hresults : mc.results rules path = .ok (due entries (firstOfName rules)) := by
    simp only [Machine.results, htext, hparse, Results.join_ofEntries]
  refine ⟨hresults, ?_, ?_⟩
  · rw [hresults, Except.ok.injEq, due_firstOfName_eq_iff]
  · rw [hresults, due_known (firstOfName_sublist rules).subset]

def twinRules : List Rule :=
  [⟨"down", "", some ⟨.pod, "delete", false⟩⟩, ⟨"down", "", some ⟨.pod, "delete", true⟩⟩]

def twinText : String :=
  "\x7b\"stray\": \x7b\"resultType\": \"vector\", \"result\": []\x7d,
  \"down\": \x7b\"resultType\": \"matrix\", \"result\": [\x7b\"metric\": \x7b\"pod\": \"api-0\"\x7d\x7d]\x7d\x7d"

def twinFile : Value :=
  .named [("stray", .named [("resultType", .string "vector"), ("result", .array [])]),
    ("down", .named [("resultType", .string "matrix"),
      ("result", .array [.named [("metric", .named [("pod", .string "api-0")])]])])]

def twinResult : QueryResult := .matrix [⟨[("pod", "api-0")], []⟩]

theorem parse_twinText : Json.parse? twinText = some twinFile := by cbv

theorem entries_twinFile :
    entries? QueryResult.decode? twinFile = some [("stray", .vector []), ("down", twinResult)] := by decide +kernel

/-- Two rules share the name of a result: the first is given it, and the second goes without. -/
theorem results_given_once_twins :
    (Simulation.machine [] [("results.json", twinText)] none).results twinRules "results.json" =
        .ok [⟨⟨"down", "", some ⟨.pod, "delete", false⟩⟩, twinResult⟩] ∧
      (Simulation.machine [] [("results.json", twinText)] none).results twinRules "results.json" ≠
        .ok (due [("stray", .vector []), ("down", twinResult)] twinRules) := by
  have htext : (Simulation.machine [] [("results.json", twinText)] none).file? "results.json" = some twinText := rfl
  obtain ⟨hresults, hall, -⟩ := results_given_once _ twinRules htext parse_twinText entries_twinFile
  have hfirst : due [("stray", .vector []), ("down", twinResult)] (firstOfName twinRules) =
      [⟨⟨"down", "", some ⟨.pod, "delete", false⟩⟩, twinResult⟩] := by decide
  exact ⟨hresults.trans (congrArg _ hfirst), fun h ↦ absurd (hall.mp h) (by decide)⟩

/-- Not all rules get what they have coming: two rules may share the name of a result. -/
theorem results_not_given_to_all :
    ¬∀ (rules : List Rule) (text : String) (file : Value) (entries : List (String × QueryResult)),
      Json.parse? text = some file → entries? QueryResult.decode? file = some entries →
      (Simulation.machine [] [("results.json", text)] none).results rules "results.json" =
        .ok (due entries rules) := by
  intro h
  have hall := h twinRules twinText twinFile _ parse_twinText entries_twinFile
  have hone : (Simulation.machine [] [("results.json", twinText)] none).results twinRules "results.json" =
      .ok [⟨⟨"down", "", some ⟨.pod, "delete", false⟩⟩, twinResult⟩] := by decide +kernel
  rw [hone, Except.ok.injEq] at hall
  exact absurd (congrArg List.length hall) (by decide)

end SelfHealing.Recovery
