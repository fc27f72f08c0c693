import TextLink.Kernel.Basic

/-!
# The written form of calls

One line for each recorded call: what was called on which socket, and after an arrow how it ended.
-/

namespace TextLink

/-- Shows the outcome of a call that gives something back. -/
def outcomeText {α : Type} (shown : α → String) : Except Errno α → String
  | .ok a => shown a
  | .error e => e.symbol

/-- The flags and the token of a registration. -/
def registrationText (token : Nat) (interest : Interest) : String :=
  s!"{(Flags.ofInterest interest).text} token={token}"

namespace Report

/-- An event as a wait shows it. -/
def text (r : Report) : String :=
  match r.source with
  | .waker => "wake"
  | .socket s _ => s!"#{s}:{r.flags.text}"
  | .injected t => s!"token={t}:{r.flags.text}"

end Report

namespace Call

/-- A call as it is shown. -/
def text : Call → String
  | socket family outcome =>
    let ending := outcomeText (fun s => "#" ++ toString s) outcome
    s!"socket {family.name} -> {ending}"
  | connect s address verdict => s!"connect #{s} {address.text} -> {verdict.symbol}"
  | takeError s (.ok verdict) => s!"so_error #{s} -> {verdict.symbol}"
  | takeError s (.error e) => s!"so_error #{s} -> failed {e.symbol}"
  | send s length outcome => s!"send #{s} {length} -> {outcomeText toString outcome}"
  | receive s size outcome =>
    let ending := outcomeText (fun bytes => toString bytes.length) outcome
    s!"recv #{s} {size} -> {ending}"
  | register s token interest verdict =>
    s!"add #{s} {registrationText token interest} -> {verdict.symbol}"
  | reregister s token interest verdict =>
    s!"mod #{s} {registrationText token interest} -> {verdict.symbol}"
  | deregister s verdict => s!"del #{s} -> {verdict.symbol}"
  | wait millis outcome =>
    let limit := match millis with
      | none => "-1"
      | some n => toString n
    let ending := match outcome with
      | .error e => e.symbol
      | .ok [] => "timeout"
      | .ok reports => " ".intercalate (reports.map Report.text)
    s!"wait {limit} -> {ending}"

end Call

end TextLink
