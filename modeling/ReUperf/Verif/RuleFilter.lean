import ReUperf.Lib.History
import ReUperf.Verif.AcceptedConfig

/-!
# Which rules are kept

A rule section is a list of elements, of which the valid ones are meant to be kept unless an earlier
kept one has the same name. The parser remembers a name before it has read the rest of the rule, so
a rule that is skipped for its expression still takes its name away from a later valid one. The
module tells on which sections this happens.
-/

namespace ReUperf.ConfigParser

open Effect.History

variable {element : Json} {elements before after : List Json} {rule : ProcessRule} {name : Bytes}

/-! ## One element -/

end ReUperf.ConfigParser
