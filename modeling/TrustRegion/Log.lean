/-!
Log lines and the levels at which they are shown.
-/
namespace TrustRegion

inductive LogLevel where
  | info
  | debug
  | trace
  deriving DecidableEq, Repr

namespace LogLevel

def all : List LogLevel := [info, debug, trace]

def name : LogLevel → String
  | info => "INFO"
  | debug => "DEBUG"
  | trace => "TRACE"

def detail : LogLevel → Nat
  | info => 0
  | debug => 1
  | trace => 2

end LogLevel

structure LogLine where
  level : LogLevel
  text : String
  deriving DecidableEq, Repr

/-- The lines of at most the detail of `level`. -/
def LogLine.upTo (level : LogLevel) (lines : List LogLine) : List LogLine :=
  lines.filter fun line => decide (line.level.detail ≤ level.detail)

end TrustRegion
