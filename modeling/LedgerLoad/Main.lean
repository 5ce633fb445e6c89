import LedgerLoad.Cli.Session
import LedgerLoad.Cli.Usage
import LedgerLoad.Rehearsal.Ledger
import LedgerLoad.Rehearsal.Results

/-!
The program on the command line, as a rehearsal: the mock ledger answers at both addresses, the results database is held in
memory, and time is virtual. Arguments, printed texts, written files and exit codes are those of every run.
-/

set_option autoImplicit false

namespace LedgerLoad.Cli

/-- More steps than any run takes that is to be waited for. -/
def rehearsalSteps : Nat := 1000000000

def inventions : MockLedger.Surroundings where
  random n := (n * 2654435761 + 12345) % 4294967296
  clock n := { seconds := 1700000000 + n }

def rehearsalResults : Rehearsal.ResultsScript :=
  { accounts := (List.range 10).map fun k => some ("0.0." ++ toString (1001 + k)) }

def steadyReadings : List Probe := List.replicate 100000 (.reading ⟨1, 8388608⟩)

def rehearsal (files : Files) : Surroundings where
  database := rehearsalResults.server
  service := Rehearsal.ledgerScript {} inventions
  readings := steadyReadings
  files := files

def tryWrite (path text : String) : IO (Option String) := do
  try
    IO.FS.writeFile path text
    return none
  catch why => return some (toString why)

def report (t : Transcript) : IO UInt32 := do
  for text in t.printed do IO.println text
  match t.failure with
  | some why => for line in why.lines do IO.eprintln line
  | none => pure ()
  return t.exitCode.toUInt32

def launch (a : Args) : IO UInt32 := do
  let t := run rehearsalSteps (rehearsal {}) a
  match t.file with
  | some (path, text) =>
    match ← tryWrite path text with
    | none => report t
    | some why => report (run rehearsalSteps (rehearsal { refusal := fun _ => some why }) a)
  | none => report t

end LedgerLoad.Cli

open LedgerLoad.Cli in
def main (line : List String) : IO UInt32 := do
  match Args.parse line with
  | .ok a => launch a
  | .error why =>
    if why.exitCode = 0 then
      for text in why.lines do IO.println text
    else
      for text in why.lines do IO.eprintln text
    return why.exitCode.toUInt32
