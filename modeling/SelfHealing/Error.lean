import SelfHealing.Net.Address.Writer
import SelfHealing.Time.Duration

/-!
What can go wrong, and how it is told. Five causes wrap another error; `rootCause` is the innermost one,
which wraps nothing.
-/

namespace SelfHealing

open Net Time

inductive Error
  | unsupportedResult (kind : String)
  | hostNotRegistered (host : Address)
  | invalidCredential (host : Address) (reason : String)
  | hostUnresolved (pod space : String)
  | connection (host : Address) (message : String)
  | commandFailed (host : Address) (command : String) (status : Int) (output : String)
  | emptyOutput (host : Address) (command : String)
  | commandTimeout (host : Address) (command : String) (limit : Duration)
  | clusterApi (operation message : String)
  | deleteFailed (space pod : String) (source : Error)
  | restartFailed (space pod : String) (source : Error)
  | shellFailed (space pod command : String) (source : Error)
  | serviceActionFailed (service pod action : String) (source : Error)
  | ruleFailed (rule : String) (source : Error)
  | configuration (message : String)
  deriving DecidableEq, Repr

instance : Inhabited Error := ⟨.configuration ""⟩

namespace Error

def message : Error → String
  | unsupportedResult kind => s!"unsupported result type: {kind}"
  | hostNotRegistered host => s!"host ip {host} not in hosts ip list"
  | invalidCredential host reason => s!"invalid ssh credential for {host}: {reason}"
  | hostUnresolved pod space => s!"no host ip found for pod {pod} (namespace '" ++ space ++ "')"
  | connection host message => s!"[{host}] connection failed: {message}"
  | commandFailed host command status _ =>
    "command '" ++ command ++ s!"' on {host} exited with status {status}"
  | emptyOutput host command => "command '" ++ command ++ s!"' on {host} returned no output"
  | commandTimeout host command limit =>
    "command '" ++ command ++ s!"' on {host} timed out after {limit.wholeSeconds}s"
  | clusterApi operation message => s!"cluster api {operation} failed: {message}"
  | deleteFailed space pod _ => s!"delete pod {space}/{pod} failed"
  | restartFailed space pod _ => s!"restart pod {space}/{pod} failed"
  | shellFailed space pod command _ => "shell '" ++ command ++ s!"' for pod {space}/{pod} failed"
  | serviceActionFailed service pod action _ =>
    "service action '" ++ action ++ s!"' for {service} (pod {pod}) failed"
  | ruleFailed rule _ => "recover rule '" ++ rule ++ "' failed"
  | configuration message => s!"configuration error: {message}"

def source? : Error → Option Error
  | deleteFailed _ _ source => some source
  | restartFailed _ _ source => some source
  | shellFailed _ _ _ source => some source
  | serviceActionFailed _ _ _ source => some source
  | ruleFailed _ source => some source
  | _ => none

def rootCause : Error → Error
  | deleteFailed _ _ source => source.rootCause
  | restartFailed _ _ source => source.rootCause
  | shellFailed _ _ _ source => source.rootCause
  | serviceActionFailed _ _ _ source => source.rootCause
  | ruleFailed _ source => source.rootCause
  | e => e

def chain : Error → List Error
  | e@(deleteFailed _ _ source) => e :: source.chain
  | e@(restartFailed _ _ source) => e :: source.chain
  | e@(shellFailed _ _ _ source) => e :: source.chain
  | e@(serviceActionFailed _ _ _ source) => e :: source.chain
  | e@(ruleFailed _ source) => e :: source.chain
  | e => [e]

end Error

end SelfHealing
