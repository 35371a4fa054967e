import SelfHealing.Registry.Credential

/-!
Running a command as the superuser: another user hands it to a privileged shell as a here-document.
-/

namespace SelfHealing

def wrapPrivileged (command : String) : String :=
  "sudo -E /bin/sh <<EOF\n" ++ command ++ "\nEOF"

/-- The text that is run for a command under a credential. -/
def Credential.prepare (c : Credential) (command : String) : String :=
  if c.isRoot then command else wrapPrivileged command

end SelfHealing
