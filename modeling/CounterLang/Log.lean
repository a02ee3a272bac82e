/-!
# Log — records of what was done

- `Level`   : how much attention a record asks for
- `Record`  : a message with named details
-/

namespace CounterLang
namespace Log

inductive Level
  | trace
  | debug
  | warn
  deriving DecidableEq, Repr

def Level.name : Level → String
  | trace => "TRACE"
  | debug => "DEBUG"
  | warn => "WARN"

structure Record where
  level : Level
  message : String
  fields : List (String × String)
  deriving DecidableEq, Repr

end Log
end CounterLang
