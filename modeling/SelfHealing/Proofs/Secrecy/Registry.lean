import Mathlib.Data.List.Forall2
import SelfHealing.Command.Privilege
import SelfHealing.Proofs.Registry.Entry

/-!
Registries that resemble each other: all that is not secret is the same, and of the secrets the same ones are set. Main
statement: what is found out about a host from two such registries resembles each other as well, up to the user that
logs in, the port and the text of a command, which are the same.
-/

namespace SelfHealing

open Net

/-- Secrets that show no difference: they are the same, or both are set. -/
def Veiled (a b : String) : Prop := a = b ∨ a ≠ "" ∧ b ≠ ""

theorem veiled_iff {a b : String} : Veiled a b ↔ (a = "" ↔ b = "") := by
  constructor
  · rintro (rfl | ⟨ha, hb⟩)
    · rfl
    · exact iff_of_false ha hb
  · intro h
    by_cases ha : a = ""
    · exact .inl (ha.trans (h.mp ha).symm)
    · exact .inr ⟨ha, mt h.mpr ha⟩

namespace Credential

variable {c c' base base' : Credential}

structure Resembles (c c' : Credential) : Prop where
  encrypted : c.encrypted = c'.encrypted
  user : c.user = c'.user
  password : Veiled c.password c'.password
  keyPath : c.keyPath = c'.keyPath
  keyPassphrase : Veiled c.keyPassphrase c'.keyPassphrase
  port : c.port = c'.port

/-- Which of two secrets counts depends on which of them are set. -/
theorem orElse_veiled {own own' base base' : String} (hown : Veiled own own') (hbase : Veiled base base') :
    Veiled (orElse own base) (orElse own' base') := by
  rw [veiled_iff] at *
  by_cases h : own = ""
  · simpa [orElse, h, hown.mp h] using hbase
  · simp [orElse, h, mt hown.mpr h]

theorem Resembles.mergedOnto (h : c.Resembles c') (hbase : base.Resembles base') :
    (c.mergedOnto base).Resembles (c'.mergedOnto base') where
  encrypted := by simp only [Credential.mergedOnto, h.encrypted, hbase.encrypted]
  user := by simp only [Credential.mergedOnto, h.user, hbase.user]
  password := orElse_veiled h.password hbase.password
  keyPath := by simp only [Credential.mergedOnto, h.keyPath, hbase.keyPath]
  keyPassphrase := orElse_veiled h.keyPassphrase hbase.keyPassphrase
  port := by simp only [Credential.mergedOnto, h.port, hbase.port]

theorem Resembles.effectiveUser (h : c.Resembles c') : c.effectiveUser = c'.effectiveUser :=
  congrArg (orElse · superuser) h.user

theorem Resembles.withUser (h : c.Resembles c') : c.withUser.Resembles c'.withUser :=
  { h with user := h.effectiveUser }

theorem Resembles.prepare (h : c.Resembles c') (command : String) : c.prepare command = c'.prepare command := by
  have hroot : c.isRoot = c'.isRoot := by simp only [isRoot, h.effectiveUser]
  simp only [Credential.prepare, hroot]

theorem Resembles.portFor (h : c.Resembles c') (host : Address) : c.portFor host = c'.portFor host := by
  simp only [Credential.portFor, invalidPort, h.port]

end Credential

structure HostEntry.Resembles (e e' : HostEntry) : Prop where
  addresses : e.addresses = e'.addresses
  roles : e.roles = e'.roles
  overrides : e.overrides.Resembles e'.overrides
  environment : e.environment = e'.environment

structure Target.Resembles (t t' : Target) : Prop where
  host : t.host = t'.host
  credential : t.credential.Resembles t'.credential
  environment : t.environment = t'.environment

namespace Registry

structure Resembles (r r' : Registry) : Prop where
  hosts : List.Forall₂ HostEntry.Resembles r.hosts r'.hosts
  credential : r.credential.Resembles r'.credential

theorem find?_lists {hosts hosts' : List HostEntry} (h : List.Forall₂ HostEntry.Resembles hosts hosts')
    (host : Address) : Option.Rel HostEntry.Resembles (hosts.find? (·.lists host)) (hosts'.find? (·.lists host)) := by
  induction h with
  | nil => exact .none
  | @cons e e' rest rest' he hrest ih =>
    have hlists : e.lists host = e'.lists host := by simp only [HostEntry.lists, he.addresses]
    simp only [List.find?_cons, hlists]
    cases e'.lists host with
    | true => exact .some he
    | false => exact ih

theorem Resembles.entry? {r r' : Registry} (h : r.Resembles r') (host : Address) :
    Option.Rel HostEntry.Resembles (r.entry? host) (r'.entry? host) :=
  find?_lists h.hosts host

inductive Targets (host : Address) : Except Error Target → Except Error Target → Prop
  | unknown : Targets host (.error (.hostNotRegistered host)) (.error (.hostNotRegistered host))
  | known {t t' : Target} (hhost : t.host = host) (h : t.Resembles t') : Targets host (.ok t) (.ok t')

theorem Resembles.target {r r' : Registry} (h : r.Resembles r') (host : Address) :
    Targets host (r.target host) (r'.target host) := by
  have hentry := h.entry? host
  rw [target_eq, target_eq]
  generalize r.entry? host = entry, r'.entry? host = entry' at hentry
  cases hentry with
  | none => exact .unknown
  | some he =>
    refine .known rfl ⟨rfl, (he.overrides.mergedOnto h.credential).withUser, ?_⟩
    simp only [HostEntry.bindings, he.environment]

end Registry

end SelfHealing
