import EspWifi.Run

/-!
# Log records

A record has a level and a message; a verbosity is the most detailed level that is kept, or `none`
when nothing is.
-/

namespace EspWifi

/-- Levels of a record, most urgent first. -/
inductive Level where
  | error | warn | info | debug | trace
  deriving DecidableEq

namespace Level

/-- Position in the order of urgency. -/
def rank : Level → Nat
  | error => 1
  | warn => 2
  | info => 3
  | debug => 4
  | trace => 5

/-- The name a record of this level carries. -/
def name : Level → String
  | error => "ERROR"
  | warn => "WARN"
  | info => "INFO"
  | debug => "DEBUG"
  | trace => "TRACE"

end Level

/-- The most detailed level that is kept, `none` to keep nothing. -/
abbrev Verbosity := Option Level

/-- A verbosity keeps every level that is no more detailed than its own. -/
def Verbosity.keeps (v : Verbosity) (level : Level) : Bool :=
  match v with
  | none => false
  | some limit => level.rank ≤ limit.rank

/-- Programs that can write a log record. -/
class MonadLog (m : Type → Type) where
  record : Level → String → m Unit

export MonadLog (record)

instance {m : Type → Type} {ε : Type} [Monad m] [MonadLog m] : MonadLog (ExceptT ε m) where
  record level message := ExceptT.lift (record level message)

section

variable {m : Type → Type} [MonadLog m]

def logError (message : String) : m Unit := record .error message
def logWarn (message : String) : m Unit := record .warn message
def logInfo (message : String) : m Unit := record .info message
def logDebug (message : String) : m Unit := record .debug message
def logTrace (message : String) : m Unit := record .trace message

end

end EspWifi
