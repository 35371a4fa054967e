import Mathlib.Logic.Relation
import SelfHealing.Proofs.Registry.Entry

/-!
What a host is reached with. Main statement: the first entry that lists a host and the credential for all hosts decide
it alone, field by field; entries that do not list the host, and entries behind the first that does, make no difference.
-/

namespace SelfHealing

open Net

namespace Credential

theorem orElse_eq (own base : String) : orElse own base = if own = "" then base else own := by
  simp only [orElse, String.isEmpty_iff]

theorem empty_orElse (base : String) : orElse "" base = base := rfl

theorem orElse_empty (own : String) : orElse own "" = own := by
  rw [orElse_eq]
  split
  · exact (‹own = ""›).symm
  · rfl

theorem orElse_assoc (a b c : String) : orElse (orElse a b) c = orElse a (orElse b c) := by
  simp only [orElse_eq]
  by_cases ha : a = ""
  · rw [if_pos ha, if_pos ha]
  · rw [if_neg ha, if_neg ha, if_neg ha]

theorem orElse_self (base : String) : orElse base base = base := by
  rw [orElse_eq, ite_self]

theorem orElse_ne_empty {own base : String} (h : base ≠ "") : orElse own base ≠ "" := by
  rw [orElse_eq]
  split
  · exact h
  · assumption

theorem mergedOnto_assoc (a b c : Credential) : (a.mergedOnto b).mergedOnto c = a.mergedOnto (b.mergedOnto c) := by
  simp only [mergedOnto, orElse_assoc, Bool.or_assoc]

theorem empty_mergedOnto (c : Credential) : empty.mergedOnto c = c := by
  simp only [mergedOnto, empty, empty_orElse, Bool.false_or]

theorem mergedOnto_empty (c : Credential) : c.mergedOnto empty = c := by
  simp only [mergedOnto, empty, orElse_empty, Bool.or_false]

theorem mergedOnto_self (c : Credential) : c.mergedOnto c = c := by
  simp only [mergedOnto, orElse_self, Bool.or_self]

theorem mergedOnto_again (own base : Credential) : (own.mergedOnto base).mergedOnto base = own.mergedOnto base := by
  rw [mergedOnto_assoc, mergedOnto_self]

def Takes (value own below : String) : Prop := (own ≠ "" → value = own) ∧ (own = "" → value = below)

theorem takes_orElse (own below : String) : Takes (orElse own below) own below := by
  rw [orElse_eq]
  exact ⟨fun h ↦ if_neg h, fun h ↦ if_pos h⟩

/-- The credential that a host's own and the one for all hosts come to. -/
structure Resolved (c own base : Credential) : Prop where
  encrypted : c.encrypted = true ↔ own.encrypted = true ∨ base.encrypted = true
  user : Takes c.user own.user (if base.user = "" then "root" else base.user)
  password : Takes c.password own.password base.password
  keyPath : Takes c.keyPath own.keyPath base.keyPath
  keyPassphrase : Takes c.keyPassphrase own.keyPassphrase base.keyPassphrase
  port : Takes c.port own.port base.port

theorem resolved_mergedOnto (own base : Credential) : (own.mergedOnto base).withUser.Resolved own base where
  encrypted := Bool.or_eq_true_iff
  user := by
    have h : (own.mergedOnto base).withUser.user = orElse own.user (orElse base.user superuser) := orElse_assoc ..
    rw [h, orElse_eq base.user]
    exact takes_orElse ..
  password := takes_orElse ..
  keyPath := takes_orElse ..
  keyPassphrase := takes_orElse ..
  port := takes_orElse ..

theorem withUser_user_ne_empty (c : Credential) : c.withUser.user ≠ "" := orElse_ne_empty (by decide)

end Credential

namespace Registry

def Listed (host : Address) (hosts : List HostEntry) : Prop := ∃ e ∈ hosts, host ∈ e.addresses

/-- An edit of a registry's entries that is none for a host: what is put in, taken out or changed does not list it, or
stands behind an entry that does. -/
inductive Edit (host : Address) : List HostEntry → List HostEntry → Prop
  | insert (front back : List HostEntry) (e : HostEntry) (h : Listed host front ∨ host ∉ e.addresses) :
      Edit host (front ++ back) (front ++ e :: back)
  | remove (front back : List HostEntry) (e : HostEntry) (h : Listed host front ∨ host ∉ e.addresses) :
      Edit host (front ++ e :: back) (front ++ back)
  | change (front back : List HostEntry) (e e' : HostEntry)
      (h : Listed host front ∨ host ∉ e.addresses ∧ host ∉ e'.addresses) :
      Edit host (front ++ e :: back) (front ++ e' :: back)

variable {host : Address} {hosts hosts' : List HostEntry} {r : Registry}

theorem isSome_find?_lists : (hosts.find? (·.lists host)).isSome ↔ Listed host hosts := by
  simp [List.find?_isSome, HostEntry.lists, Listed]

theorem find?_skip {front back : List HostEntry} {e : HostEntry} (h : Listed host front ∨ host ∉ e.addresses) :
    (front ++ e :: back).find? (·.lists host) = (front ++ back).find? (·.lists host) := by
  rw [List.find?_append, List.find?_append]
  obtain h | h := h
  · -- The front has an entry for the host, so nothing behind it counts.
    obtain ⟨first, hfirst⟩ := Option.isSome_iff_exists.mp (isSome_find?_lists.mpr h)
    rw [hfirst, Option.some_or, Option.some_or]
  · have hlists : ¬e.lists host := by simpa [HostEntry.lists] using h
    congr 1
    exact List.find?_cons_of_neg hlists

theorem Edit.find?_lists (h : Edit host hosts hosts') :
    hosts'.find? (·.lists host) = hosts.find? (·.lists host) := by
  cases h with
  | insert front back e h => exact find?_skip h
  | remove front back e h => exact (find?_skip h).symm
  | change front back e e' h => rw [find?_skip (h.imp_right And.left), find?_skip (h.imp_right And.right)]

theorem target_edited (h : Relation.ReflTransGen (Edit host) hosts hosts') (base : Credential) :
    target ⟨hosts', base⟩ host = target ⟨hosts, base⟩ host := by
  induction h with
  | refl => rfl
  | tail _ hstep ih =>
    rw [← ih]
    simp only [target_eq, Registry.entry?, hstep.find?_lists, resolve]

/-- The entry that decides is the first that lists the host. -/
theorem entry?_split {e : HostEntry} (h : r.entry? host = some e) :
    host ∈ e.addresses ∧ ∃ before after, r.hosts = before ++ e :: after ∧ ¬Listed host before := by
  obtain ⟨hlists, before, after, hhosts, hbefore⟩ := List.find?_eq_some_iff_append.mp h
  refine ⟨of_decide_eq_true hlists, before, after, hhosts, ?_⟩
  rintro ⟨x, hx, hhost⟩
  simpa [HostEntry.lists, hhost] using hbefore x hx

theorem target_unlisted (h : ¬Listed host r.hosts) : r.target host = .error (.hostNotRegistered host) :=
  target_of_none (entry?_eq_none fun e he hhost ↦ h ⟨e, he, hhost⟩)

theorem target_listed (h : Listed host r.hosts) :
    ∃ e, r.entry? host = some e ∧ r.target host = .ok ⟨host, r.resolve e, e.bindings⟩ := by
  obtain ⟨e, he, hhost⟩ := h
  obtain ⟨first, hfirst⟩ := entry?_of_listed he hhost
  exact ⟨first, hfirst, target_of_entry hfirst⟩

theorem listed_of_target {t : Target} (h : r.target host = .ok t) : Listed host r.hosts := by
  by_cases hlisted : Listed host r.hosts
  · exact hlisted
  · rw [target_unlisted hlisted] at h
    cases h

theorem target_determined (r : Registry) (host : Address) :
    ((∃ t, r.target host = .ok t) ↔ Listed host r.hosts) ∧
      (¬Listed host r.hosts → r.target host = .error (.hostNotRegistered host)) ∧
      (∀ t, r.target host = .ok t → t.host = host ∧ r.credentialFor host = .ok t.credential ∧ t.credential.user ≠ "" ∧
        ∃ before e after, r.hosts = before ++ e :: after ∧ ¬Listed host before ∧ host ∈ e.addresses ∧
          t.credential.Resolved e.overrides r.credential ∧ t.environment = e.bindings) ∧
      (∀ hosts, Relation.ReflTransGen (Edit host) r.hosts hosts → target ⟨hosts, r.credential⟩ host = r.target host) ∧
      (∀ a b c : Credential, (a.mergedOnto b).mergedOnto c = a.mergedOnto (b.mergedOnto c)) ∧
      (∀ c : Credential, Credential.empty.mergedOnto c = c ∧ c.mergedOnto .empty = c) ∧
      ∀ own base : Credential, (own.mergedOnto base).mergedOnto base = own.mergedOnto base := by
  refine ⟨⟨fun ⟨t, ht⟩ ↦ listed_of_target ht, fun h ↦ ?_⟩, target_unlisted, fun t ht ↦ ?_,
    fun hosts h ↦ target_edited h r.credential, Credential.mergedOnto_assoc,
    fun c ↦ ⟨c.empty_mergedOnto, c.mergedOnto_empty⟩, Credential.mergedOnto_again⟩
  · obtain ⟨e, -, ht⟩ := target_listed h
    exact ⟨_, ht⟩
  · obtain ⟨e, he, htarget⟩ := target_listed (listed_of_target ht)
    obtain rfl : ⟨host, r.resolve e, e.bindings⟩ = t := Except.ok.inj (htarget.symm.trans ht)
    obtain ⟨hhost, before, after, hhosts, hbefore⟩ := entry?_split he
    have hcredential : r.credentialFor host = .ok (r.resolve e) := by simp only [credentialFor, he]
    exact ⟨rfl, hcredential, Credential.withUser_user_ne_empty _, before, e, after, hhosts, hbefore, hhost,
      Credential.resolved_mergedOnto .., rfl⟩

def overlapping : List HostEntry :=
  [⟨[.v4 ⟨10, 0, 0, 7⟩], [], .empty, ["A=0"]⟩,
    ⟨[.v4 ⟨10, 0, 0, 8⟩, .v4 ⟨10, 0, 0, 9⟩], [], { Credential.empty with port := "2222" }, ["A=1"]⟩,
    ⟨[.v4 ⟨10, 0, 0, 9⟩], [], { Credential.empty with user := "deploy" }, ["A=2"]⟩]

/-- The second entry decides for its host, also when the first is gone and the third has turned into another. -/
theorem target_determined_overlapping :
    target ⟨[⟨[.v4 ⟨10, 0, 0, 8⟩, .v4 ⟨10, 0, 0, 9⟩], [], { Credential.empty with port := "2222" }, ["A=1"]⟩,
        ⟨[.v4 ⟨10, 0, 0, 9⟩], [], { Credential.empty with encrypted := true }, []⟩],
          { Credential.empty with password := "x" }⟩ (.v4 ⟨10, 0, 0, 9⟩) =
      .ok ⟨.v4 ⟨10, 0, 0, 9⟩, ⟨false, "root", "x", "", "", "2222"⟩, [⟨"A", "1"⟩]⟩ := by
  obtain ⟨-, -, -, hedit, -⟩ :=
    target_determined ⟨overlapping, { Credential.empty with password := "x" }⟩ (.v4 ⟨10, 0, 0, 9⟩)
  refine (hedit _ (.tail (.single (.remove [] _ _ (.inr (by decide)))) (.change [_] [] _ _ (.inl ?_)))).trans ?_
  · exact ⟨_, List.mem_singleton_self _, by decide⟩
  · rfl

end Registry

end SelfHealing
