import Mathlib.Logic.Relation
import SelfHealing.Error

/-!
What an error goes back to. Main statement: the root cause is the one error that the wrappings lead to and that wraps
nothing itself.
-/

namespace SelfHealing.Error

open Relation

def Wraps (outer inner : Error) : Prop := outer.source? = some inner

def IsPlain (e : Error) : Prop := e.source? = none

theorem rootCause_of_isPlain {e : Error} (h : e.IsPlain) : e.rootCause = e := by
  cases e with
  | deleteFailed | restartFailed | shellFailed | serviceActionFailed | ruleFailed => cases h
  | _ => rfl

theorem rootCause_of_wraps {outer inner : Error} (h : outer.Wraps inner) : outer.rootCause = inner.rootCause := by
  cases outer with
  | deleteFailed | restartFailed | shellFailed | serviceActionFailed | ruleFailed =>
    cases h
    rfl
  | _ => cases h

theorem isPlain_rootCause (e : Error) : e.rootCause.IsPlain := by
  induction e with
  | deleteFailed _ _ _ ih | restartFailed _ _ _ ih => exact ih
  | shellFailed _ _ _ _ ih | serviceActionFailed _ _ _ _ ih => exact ih
  | ruleFailed _ _ ih => exact ih
  | _ => rfl

theorem wraps_rootCause (e : Error) : ReflTransGen Wraps e e.rootCause := by
  induction e with
  | deleteFailed _ _ _ ih | restartFailed _ _ _ ih => exact .head rfl ih
  | shellFailed _ _ _ _ ih | serviceActionFailed _ _ _ _ ih => exact .head rfl ih
  | ruleFailed _ _ ih => exact .head rfl ih
  | _ => exact .refl

theorem rootCause_of_reflTransGen {outer inner : Error} (h : ReflTransGen Wraps outer inner) :
    outer.rootCause = inner.rootCause := by
  induction h with
  | refl => rfl
  | tail _ hlast ih => rw [ih, rootCause_of_wraps hlast]

theorem rootCause_eq_iff {e cause : Error} : e.rootCause = cause ↔ ReflTransGen Wraps e cause ∧ cause.IsPlain := by
  constructor
  · intro h
    subst h
    exact ⟨wraps_rootCause e, isPlain_rootCause e⟩
  · intro ⟨hwraps, hplain⟩
    rw [rootCause_of_reflTransGen hwraps, rootCause_of_isPlain hplain]

theorem rootCause_rootCause (e : Error) : e.rootCause.rootCause = e.rootCause :=
  rootCause_of_isPlain (isPlain_rootCause e)

end SelfHealing.Error
