import SelfHealing.Error

/-!
Work in a world: it ends with a value or an error, unless the process is aborted before.
-/

namespace SelfHealing

abbrev Task (m : Type → Type) := ExceptT Error (OptionT m)

namespace Task

variable {m : Type → Type} [Monad m] {α : Type}

def lift (x : m α) : Task m α :=
  ExceptT.lift (OptionT.lift x)

/-- Work of the world that may fail. -/
def call (x : m (Except Error α)) : Task m α :=
  ExceptT.mk (OptionT.lift x)

def ofExcept : Except Error α → Task m α
  | .ok a => pure a
  | .error e => throw e

def abort : Task m α :=
  ExceptT.mk (OptionT.mk (pure none))

def explain (f : Error → Error) (x : Task m α) : Task m α :=
  ExceptT.adapt f x

def run (x : Task m α) : m (Option (Except Error α)) :=
  OptionT.run (ExceptT.run x)

end Task

end SelfHealing
