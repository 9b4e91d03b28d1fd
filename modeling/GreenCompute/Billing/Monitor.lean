import GreenCompute.Billing.Tables

/-!
# The billing monitor

Every few minutes a pass of the monitor looks at the rows that were added to the ledger since the
last one, and at some other things. It keeps a marker for each finding that it has reported, and
where it got to, and hands the new findings over after it has committed.

A row may commit some time after it was created, so a pass looks back a little further than the last
one got. Its two queries are statements of one transaction, each of which sees what is committed
when it runs; so a pass is taken apart into its steps, and rows may commit between them. It may die
after any step, which before the commit leaves nothing behind.

The texts of the findings, and what the other checks find, are left out; the latter is given with
the pass. The daily summary is left out too.
-/

namespace GreenCompute

/-- A row of `ledger_entries`, as the monitor reads it. -/
structure MonitoredEntry where
  entryId : ℕ
  userId : UserId
  amountCents : ℤ
  balanceAfter : ℤ
  kind : Text
  depositRef : Option Text
  createdAt : Time
  deriving DecidableEq

inductive Severity where
  | problem
  | notice
  deriving DecidableEq

/-- When a finding that is still there is reported again. -/
inductive Realert where
  | never
  | waiting
  | usual
  deriving DecidableEq

/-- The key of a finding. The other checks have keys of their own. -/
inductive FindingKey where
  | credit (entryId : ℕ)
  | neg (entryId : ℕ)
  | other (realert : Realert) (name : Text)
  deriving DecidableEq

structure Finding where
  check : Text
  key : FindingKey
  severity : Severity
  deriving DecidableEq

/-- What another check finds. -/
structure OtherFinding where
  check : Text
  realert : Realert
  name : Text
  severity : Severity

def OtherFinding.toFinding (f : OtherFinding) : Finding :=
  ⟨f.check, .other f.realert f.name, f.severity⟩

namespace BillingMonitor

/-! ## Checks -/

/-- `REALERT_AFTER` -/
def realertAfter : Time := 21600

/-- `REALERT_WAITING` -/
def realertWaiting : Time := 86400

/-- `FIRST_RUN_LOOKBACK` -/
def firstRunLookback : Time := 3600

/-- `CURSOR_OVERLAP` -/
def cursorOverlap : Time := 300

/-- `SENT_RETENTION` -/
def sentRetention : Time := 604800

/-- `MAY_GO_NEGATIVE` -/
def mayGoNegative : List Text :=
  ["storage".toList, "adjustment".toList, "refund".toList, "chargeback".toList]

/-- `MANUAL_DEBITS` -/
def manualDebits : List Text :=
  ["adjustment".toList, "refund".toList, "chargeback".toList, "account_closed".toList]

/-- What `negative_charges` selects, of the rows in its window. -/
def isNegativeCharge (r : MonitoredEntry) : Bool := r.balanceAfter < 0 ∧ r.kind ∉ mayGoNegative

/-- `negative_charges` -/
def negativeCharges (since : Time) (ledger : List MonitoredEntry) : List Finding :=
  (ledger.filter fun r ↦ since < r.createdAt ∧ isNegativeCharge r).map fun r ↦
    ⟨"negative_balance".toList, .neg r.entryId, .problem⟩

/-- `_is_manual` -/
def isManual (r : MonitoredEntry) : Bool :=
  r.depositRef.getD [] = [] ∨ "manual:".toList <+: r.depositRef.getD []

/-- What `notable_credits` makes of a row that it selects. -/
def creditFinding (large : ℤ) (r : MonitoredEntry) : Option Finding :=
  if r.kind ∈ manualDebits then some ⟨"manual_debit".toList, .credit r.entryId, .notice⟩
  else if 0 < r.amountCents ∧ isManual r then
    some ⟨"manual_credit".toList, .credit r.entryId, .notice⟩
  else if large ≤ r.amountCents then some ⟨"large_credit".toList, .credit r.entryId, .notice⟩
  else none

/-- `notable_credits`, but for the accounts that top up repeatedly. -/
def notableCredits (large : ℤ) (since : Time) (ledger : List MonitoredEntry) : List Finding :=
  (ledger.filter fun r ↦
    since < r.createdAt ∧ (0 < r.amountCents ∨ r.kind ∈ manualDebits)).filterMap
      (creditFinding large)

/-! ## What has been reported -/

/-- The rows under `monitor:sent:`, with the time of their last update. -/
abbrev SentMarkers := Table FindingKey (Text × Time)

/-- A finding with this key, reported at a time, is not to be reported yet. -/
def holdsBack (now : Time) : FindingKey → Time → Bool
  | .credit _, _ | .neg _, _ | .other .never _, _ => true
  | .other .waiting _, at_ => now - realertWaiting < at_
  | .other .usual _, at_ => now - realertAfter < at_

/-- `due`, with the marker that it leaves. -/
def due (now : Time) (f : Finding) (sent : SentMarkers) : Bool × SentMarkers :=
  if ((sent.get? f.key).any fun row ↦ holdsBack now f.key row.2) then (false, sent)
  else (true, sent.insert f.key (f.check, now))

/-- The findings that are due, one after the other. -/
def takeDue (now : Time) : List Finding → SentMarkers → List Finding × SentMarkers
  | [], sent => ([], sent)
  | f :: fs, sent =>
    let rest := takeDue now fs (due now f sent).2
    (if (due now f sent).1 then f :: rest.1 else rest.1, rest.2)

/-- Markers that are old enough are deleted. -/
def forget (now : Time) (sent : SentMarkers) : SentMarkers :=
  sent.filter fun _ row ↦ now - sentRetention ≤ row.2

/-! ## Passes -/

/-- How far a pass has got: which time it read, and what its queries saw. -/
inductive MonitorPass where
  | idle
  | started (now : Time)
  | charged (now : Time) (seen : List MonitoredEntry)
  | scanned (now : Time) (seen seen' : List MonitoredEntry)
  /-- The new findings are still to be handed over. -/
  | committed (seen : List MonitoredEntry) (new : List Finding)

end BillingMonitor

/-- The ledger, the monitor's bookkeeping and the pass that is under way. Three things are kept for
the record: when the first pass began, the alerts that were handed to `send`, and the rows that the
last pass saw that got to its end. -/
structure Monitor where
  clock : Time
  ledger : List MonitoredEntry
  cursor : Option Time
  sent : BillingMonitor.SentMarkers
  pass : BillingMonitor.MonitorPass
  firstPass : Option Time
  alerts : List (List Finding)
  covered : List MonitoredEntry

open BillingMonitor in
/-- What may happen. A row commits within `CURSOR_OVERLAP` of the time at which it was created, and
between the time that a pass reads and its first query time passes. -/
inductive MonitorOp where
  | elapse (span : Time) (h : 0 ≤ span)
  | record (entry : MonitoredEntry) (age : Time) (h : 0 ≤ age ∧ age ≤ cursorOverlap)
  | start (wait : Time) (h : 0 < wait)
  | scanCharges
  | scanCredits
  | settle (before after : List OtherFinding)
  | send
  | die

namespace Monitor

open BillingMonitor

/-- Before the first pass. -/
def empty : Monitor := ⟨0, [], none, .empty, .idle, none, [], []⟩

/-- The beginning of the window of a pass. -/
def since (s : Monitor) (now : Time) : Time :=
  s.cursor.getD (now - firstRunLookback) - cursorOverlap

/-- A row commits; the time at which it was created is so long ago. -/
def record (entry : MonitoredEntry) (age : Time) (s : Monitor) : Monitor :=
  if ∃ r ∈ s.ledger, r.entryId = entry.entryId then s
  else { s with ledger := s.ledger ++ [{ entry with createdAt := s.clock - age }] }

/-- The beginning of `run_once`. -/
def start (wait : Time) (s : Monitor) : Monitor :=
  match s.pass with
  | .idle =>
    { s with
      clock := s.clock + wait
      pass := .started s.clock
      firstPass := some (s.firstPass.getD s.clock) }
  | _ => s

/-- The query of `negative_charges`. -/
def scanCharges (s : Monitor) : Monitor :=
  match s.pass with
  | .started now => { s with pass := .charged now s.ledger }
  | _ => s

/-- The query of `notable_credits`. -/
def scanCredits (s : Monitor) : Monitor :=
  match s.pass with
  | .charged now seen => { s with pass := .scanned now seen s.ledger }
  | _ => s

/-- The findings of a pass, in their order. -/
def findings (large : ℤ) (before after : List OtherFinding) (now : Time)
    (seen seen' : List MonitoredEntry) (s : Monitor) : List Finding :=
  before.map OtherFinding.toFinding ++ negativeCharges (s.since now) seen ++
    notableCredits large (s.since now) seen' ++ after.map OtherFinding.toFinding

/-- The end of the transaction of `run_once`. -/
def settle (large : ℤ) (before after : List OtherFinding) (s : Monitor) : Monitor :=
  match s.pass with
  | .scanned now seen seen' =>
    let taken := takeDue now (s.findings large before after now seen seen') s.sent
    { s with
      cursor := some now
      sent := forget now taken.2
      pass := .committed seen taken.1 }
  | _ => s

/-- The new findings, if any, are handed to `send`, which may raise. -/
def send (s : Monitor) : Monitor :=
  match s.pass with
  | .committed seen new =>
    { s with
      pass := .idle
      alerts := if new = [] then s.alerts else s.alerts ++ [new]
      covered := seen }
  | _ => s

end Monitor

/-- One step. -/
def MonitorOp.exec (large : ℤ) : MonitorOp → Monitor → Monitor
  | elapse span _, s => { s with clock := s.clock + span }
  | record entry age _, s => s.record entry age
  | start wait _, s => s.start wait
  | scanCharges, s => s.scanCharges
  | scanCredits, s => s.scanCredits
  | settle before after, s => s.settle large before after
  | send, s => s.send
  | die, s => { s with pass := .idle }

end GreenCompute
