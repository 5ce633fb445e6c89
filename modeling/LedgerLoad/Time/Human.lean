import LedgerLoad.Time.Span

/-!
Durations in words: `1year 2months 3days 4h 5m 6s`. A year is 365.25 days and a month 30.44 days.
-/

set_option autoImplicit false

namespace LedgerLoad.Span

def humanPart (n : Nat) (unit : String) (plural : Bool) : List String :=
  if n = 0 then [] else [toString n ++ unit ++ (if plural && n > 1 then "s" else "")]

def human (s : Span) : String :=
  let years := s.secs / 31557600
  let inYear := s.secs % 31557600
  let months := inYear / 2630016
  let inMonth := inYear % 2630016
  let days := inMonth / 86400
  let inDay := inMonth % 86400
  let parts := humanPart years "year" true ++ humanPart months "month" true ++ humanPart days "day" true ++
    humanPart (inDay / 3600) "h" false ++ humanPart (inDay % 3600 / 60) "m" false ++
    humanPart (inDay % 60) "s" false
  if parts.isEmpty then "0s" else " ".intercalate parts

end LedgerLoad.Span
