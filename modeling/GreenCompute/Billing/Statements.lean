import GreenCompute.Billing.Tables
import GreenCompute.Foundations.Grouping
import Mathlib.Data.Rat.Floor

/-!
# Statements

What an account was charged in a range of days, read from its ledger by one grouped scan: the
per-minute charges summed by reference, kind, day and text, the other rows one by one. A summary
adds these groups up by day and by deployment, and a monthly statement has one line for each
deployment, kind and day, and one for each other row.

Dates are ordinals of UTC days. What the control plane knows of a deployment, and the rate that a
charge's text names, are parameters.
-/

namespace GreenCompute

abbrev EntryId := ℕ

/-- A UTC date, as its ordinal. -/
abbrev Day := ℤ

/-- The columns of `ledger_entries` that statements read. -/
structure StatementEntry where
  userId : UserId
  amountCents : ℤ
  kind : Text
  referenceId : Option Text
  description : Option Text
  createdAt : Time
  deriving DecidableEq

/-- A snapshot of the balances and of the ledger. -/
structure StatementDb where
  balances : Table UserId ℤ
  ledger : Table EntryId StatementEntry

/-- The UTC date of a time. -/
def utcDay (t : Time) : Day := ⌊t / 86400⌋ + 719163

/-- When a UTC date begins. -/
def midnight (d : Day) : Time := (d - 719163) * 86400

/-! ## The grouped scan -/

/-- `METERED_KINDS` -/
def meteredKinds : List Text := ["usage".toList, "storage".toList, "inference".toList]

/-- What the scan groups the per-minute charges by. -/
structure ChargeKey where
  ref : Option Text
  kind : Text
  day : Day
  description : Option Text
  deriving DecidableEq

/-- One group of the scan. -/
structure ChargeGroup where
  cents : ℤ
  rows : ℕ
  firstAt : Time
  lastAt : Time

/-- The group of a charge: requests to shared models are grouped by day only. -/
def StatementEntry.chargeKey (e : StatementEntry) : ChargeKey :=
  let isInference := e.kind = "inference".toList
  { ref := if isInference then none else e.referenceId
    kind := e.kind
    day := utcDay e.createdAt
    description := if isInference then some [] else e.description }

/-- A group that has no charge yet. -/
def ChargeGroup.none (e : StatementEntry) : ChargeGroup := ⟨0, 0, e.createdAt, e.createdAt⟩

/-- One more charge of a group. -/
def ChargeGroup.add (e : StatementEntry) (c : ChargeGroup) : ChargeGroup where
  cents := c.cents + e.amountCents
  rows := c.rows + 1
  firstAt := min c.firstAt e.createdAt
  lastAt := max c.lastAt e.createdAt

/-- What `spending_rows` returns. -/
structure SpendingRows where
  metered : List (ChargeKey × ChargeGroup)
  entries : List (EntryId × StatementEntry)
  openingCents : ℤ
  closingCents : ℤ

namespace StatementDb

variable (db : StatementDb) (user : UserId)

/-- The sum of a user's rows of some time. -/
def total (during : Time → Bool) : ℤ :=
  db.ledger.total fun _ e ↦ if e.userId = user ∧ during e.createdAt then e.amountCents else 0

/-- A user's rows of some time. -/
def range (since untilTime : Time) : List (EntryId × StatementEntry) :=
  db.ledger.select fun _ e ↦ e.userId = user ∧ since ≤ e.createdAt ∧ e.createdAt < untilTime

/-- `spending_rows` -/
def spendingRows (since untilTime : Time) : SpendingRows :=
  let rows := db.range user since untilTime
  let metered := rows.filter fun r ↦ r.2.kind ∈ meteredKinds
  let closing := (db.balances.get? user).getD 0 - db.total user fun t ↦ untilTime ≤ t
  { metered :=
      (Table.accumulate (fun r : EntryId × StatementEntry ↦ r.2.chargeKey) (fun r ↦ .none r.2)
        (fun r ↦ .add r.2) .empty metered).rows
    entries := (rows.filter fun r ↦ r.2.kind ∉ meteredKinds).mergeSort fun r r' ↦
      r.2.createdAt < r'.2.createdAt ∨ r.2.createdAt = r'.2.createdAt ∧ r.1 ≤ r'.1
    openingCents := closing - db.total user fun t ↦ since ≤ t ∧ t < untilTime
    closingCents := closing }

end StatementDb

/-! ## Labels and categories -/

inductive LabelKind where
  | rental
  | model
  | shared
  deriving DecidableEq

/-- What a deployment was, for the customer. -/
structure Label where
  name : Text
  kind : LabelKind
  state : Option Text
  gpuModel : Option Text
  gpuCount : Option ℕ

/-- What the control plane says of a deployment whose charge has this text, and the rates that a
charge's text names. -/
structure StatementEnv where
  describe : Text → Text → Label
  centsPerHour : Text → Option ℤ
  storageCentsPerDay : Text → Option ℤ

/-- The label of charges that name no deployment. -/
def sharedLabel : Label := ⟨"Shared models".toList, .shared, none, none, none⟩

inductive Category where
  | gpuRentals
  | privateModels
  | storage
  | sharedModels
  deriving DecidableEq

/-- `_category` -/
def category (kind : Text) (label : LabelKind) : Category :=
  if kind = "storage".toList then .storage
  else if kind = "inference".toList then .sharedModels
  else if label = .model then .privateModels
  else .gpuRentals

/-- `TYPE_NAMES` -/
def Category.typeName : Category → Text
  | gpuRentals => "GPU rental".toList
  | privateModels => "Private model".toList
  | storage => "Saved-pod storage".toList
  | sharedModels => "Shared models".toList

/-! ## Groups by deployment, kind and day -/

structure GroupKey where
  ref : Option Text
  kind : Text
  day : Day
  deriving DecidableEq

def ChargeKey.groupKey (k : ChargeKey) : GroupKey := ⟨k.ref, k.kind, k.day⟩

/-- A group of `_groups`; what it was charged is positive here. -/
structure Group where
  info : Label
  category : Category
  cents : ℤ
  rows : ℕ
  hours : ℚ
  hoursKnown : Bool
  days : ℚ
  firstAt : Time
  lastAt : Time

namespace Statements

variable (env : StatementEnv)

/-- The label of a reference, which is looked up with the text of its first group. -/
def labelOf (metered : List (ChargeKey × ChargeGroup)) (ref : Option Text) : Label :=
  match ref with
  | none | some [] => sharedLabel
  | some deploymentId =>
    let first := metered.find? fun r ↦ r.1.ref = some deploymentId
    env.describe deploymentId ((first.bind fun r ↦ r.1.description).getD [])

/-- A group that nothing has been added to yet. -/
def newGroup (metered : List (ChargeKey × ChargeGroup)) (r : ChargeKey × ChargeGroup) : Group :=
  let info := labelOf env metered r.1.ref
  { info := info
    category := category r.1.kind info.kind
    cents := 0
    rows := 0
    hours := 0
    hoursKnown := true
    days := 0
    firstAt := r.2.firstAt
    lastAt := r.2.lastAt }

/-- The hours that a group of the scan adds. -/
def addHours (r : ChargeKey × ChargeGroup) (g : Group) : Group :=
  let charged : ℤ := -r.2.cents
  let text := r.1.description.getD []
  if r.1.kind = "usage".toList then
    match env.centsPerHour text with
    | none | some 0 => { g with hoursKnown := false }
    | some rate => { g with hours := g.hours + charged / rate }
  else if r.1.kind = "storage".toList then
    match env.storageCentsPerDay text with
    | none | some 0 => g
    | some perDay => { g with days := g.days + charged / perDay }
  else g

/-- One more group of the scan. -/
def addCharges (r : ChargeKey × ChargeGroup) (g : Group) : Group :=
  addHours env r
    { g with
      cents := g.cents - r.2.cents
      rows := g.rows + r.2.rows
      firstAt := min g.firstAt r.2.firstAt
      lastAt := max g.lastAt r.2.lastAt }

/-- `_groups` -/
def groups (metered : List (ChargeKey × ChargeGroup)) : Table GroupKey Group :=
  Table.accumulate (fun r : ChargeKey × ChargeGroup ↦ r.1.groupKey) (newGroup env metered)
    (addCharges env) .empty metered

end Statements

/-! ## The summary -/

/-- `_usd` -/
def usd (cents : ℤ) : ℚ := cents / 100

/-- The totals of a day, in cents. -/
structure DayTotals where
  charged : ℤ
  toppedUp : ℤ
  adjustments : ℤ
  gpuRentals : ℤ
  privateModels : ℤ
  storage : ℤ
  sharedModels : ℤ

namespace DayTotals

/-- `blank` -/
def blank : DayTotals := ⟨0, 0, 0, 0, 0, 0, 0⟩

/-- `CREDIT_KINDS` -/
def creditKinds : List Text := ["topup".toList, "bonus".toList]

/-- A row that is not metered. -/
def addEntry (e : StatementEntry) (d : DayTotals) : DayTotals :=
  if e.kind ∈ creditKinds then { d with toppedUp := d.toppedUp + e.amountCents }
  else { d with adjustments := d.adjustments + e.amountCents }

/-- `d[g["category"]] += g["cents"]` -/
def addToCategory (g : Group) (d : DayTotals) : DayTotals :=
  match g.category with
  | .gpuRentals => { d with gpuRentals := d.gpuRentals + g.cents }
  | .privateModels => { d with privateModels := d.privateModels + g.cents }
  | .storage => { d with storage := d.storage + g.cents }
  | .sharedModels => { d with sharedModels := d.sharedModels + g.cents }

/-- A group of the day. -/
def addGroup (g : Group) (d : DayTotals) : DayTotals :=
  let d := d.addToCategory g
  { d with charged := d.charged + g.cents }

end DayTotals

/-- What a deployment was charged, in cents. -/
structure DeploymentTotals where
  info : Label
  gpuCents : ℤ
  storageCents : ℤ
  hours : ℚ
  firstAt : Time
  lastAt : Time

namespace DeploymentTotals

/-- A deployment with no charge yet. -/
def blank (g : Group) : DeploymentTotals := ⟨g.info, 0, 0, 0, g.firstAt, g.lastAt⟩

/-- A group of the deployment. -/
def addGroup (kind : Text) (g : Group) (e : DeploymentTotals) : DeploymentTotals :=
  let charged : DeploymentTotals :=
    if kind = "storage".toList then { e with storageCents := e.storageCents + g.cents }
    else { e with gpuCents := e.gpuCents + g.cents, hours := e.hours + g.hours }
  { charged with firstAt := min e.firstAt g.firstAt, lastAt := max e.lastAt g.lastAt }

def totalCents (e : DeploymentTotals) : ℤ := e.gpuCents + e.storageCents

end DeploymentTotals

/-- A day of a summary. -/
structure SummaryDay where
  date : Day
  chargedUsd : ℚ
  toppedUpUsd : ℚ
  adjustmentsUsd : ℚ
  gpuRentalsUsd : ℚ
  privateModelsUsd : ℚ
  storageUsd : ℚ
  sharedModelsUsd : ℚ

/-- A deployment of a summary. -/
structure SummaryDeployment where
  deploymentId : Option Text
  info : Label
  hours : ℚ
  gpuUsd : ℚ
  storageUsd : ℚ
  totalUsd : ℚ
  totalCents : ℤ
  firstChargeAt : Time
  lastChargeAt : Time

/-- What `spending_summary` returns. -/
structure SpendingSummary where
  first : Day
  last : Day
  openingBalanceUsd : ℚ
  closingBalanceUsd : ℚ
  chargedUsd : ℚ
  toppedUpUsd : ℚ
  adjustmentsUsd : ℚ
  sharedModelsUsd : ℚ
  sharedModelRequests : ℕ
  days : List SummaryDay
  deployments : List SummaryDeployment

def DayTotals.summaryDay (date : Day) (d : DayTotals) : SummaryDay where
  date := date
  chargedUsd := usd d.charged
  toppedUpUsd := usd d.toppedUp
  adjustmentsUsd := usd d.adjustments
  gpuRentalsUsd := usd d.gpuRentals
  privateModelsUsd := usd d.privateModels
  storageUsd := usd d.storage
  sharedModelsUsd := usd d.sharedModels

def DeploymentTotals.summaryDeployment (ref : Option Text) (e : DeploymentTotals) :
    SummaryDeployment where
  deploymentId := ref
  info := e.info
  hours := e.hours
  gpuUsd := usd e.gpuCents
  storageUsd := usd e.storageCents
  totalUsd := usd e.totalCents
  totalCents := e.totalCents
  firstChargeAt := e.firstAt
  lastChargeAt := e.lastAt

namespace Statements

variable (env : StatementEnv)

/-- The days of a summary. -/
def dayTotals (entries : List (EntryId × StatementEntry)) (groups : List (GroupKey × Group)) :
    Table Day DayTotals :=
  let credited := Table.accumulate (fun r : EntryId × StatementEntry ↦ utcDay r.2.createdAt)
    (fun _ ↦ .blank) (fun r ↦ .addEntry r.2) .empty entries
  Table.accumulate (fun r : GroupKey × Group ↦ r.1.day) (fun _ ↦ .blank) (fun r ↦ .addGroup r.2)
    credited groups

/-- The deployments of a summary: the groups that are not of shared models. -/
def deploymentTotals (groups : List (GroupKey × Group)) : Table (Option Text) DeploymentTotals :=
  Table.accumulate (fun r : GroupKey × Group ↦ r.1.ref) (fun r ↦ .blank r.2)
    (fun r ↦ .addGroup r.1.kind r.2) .empty
    (groups.filter fun r ↦ r.1.kind ≠ "inference".toList)

/-- `spending_summary` -/
def spendingSummary (db : StatementDb) (user : UserId) (first last : Day) : SpendingSummary :=
  let rows := db.spendingRows user (midnight first) (midnight (last + 1))
  let groups := (groups env rows.metered).rows
  let days := (dayTotals rows.entries groups).rows
  let shared := groups.filter fun r ↦ r.1.kind = "inference".toList
  let deployments := (deploymentTotals groups).rows.map fun r ↦ r.2.summaryDeployment r.1
  { first := first
    last := last
    openingBalanceUsd := usd rows.openingCents
    closingBalanceUsd := usd rows.closingCents
    chargedUsd := usd (days.map fun r ↦ r.2.charged).sum
    toppedUpUsd := usd (days.map fun r ↦ r.2.toppedUp).sum
    adjustmentsUsd := usd (days.map fun r ↦ r.2.adjustments).sum
    sharedModelsUsd := usd (shared.map fun r ↦ r.2.cents).sum
    sharedModelRequests := (shared.map fun r ↦ r.2.rows).sum
    days := (days.mergeSort fun r r' ↦ r.1 ≤ r'.1).map fun r ↦ r.2.summaryDay r.1
    deployments := deployments.mergeSort fun d d' ↦
      d'.totalCents < d.totalCents ∨
        d.totalCents = d'.totalCents ∧ ¬d'.info.name < d.info.name }

end Statements

/-! ## The monthly statement -/

/-- How much was used. -/
inductive Quantity where
  | hours (h : ℚ)
  | days (d : ℚ)
  | requests (n : ℕ)

/-- `_quantity` -/
def Group.quantity (kind : Text) (g : Group) : Option Quantity :=
  if kind = "usage".toList ∧ g.hoursKnown = true then some (.hours g.hours)
  else if kind = "storage".toList ∧ g.days ≠ 0 then some (.days g.days)
  else if kind = "inference".toList then some (.requests g.rows)
  else none

/-- What the lines of a day are sorted by: the rows that are not metered come first, in the order of
their times. -/
inductive LineOrder where
  | entry (at_ : Time)
  | charge (type what : Text)

/-- `line["_sort"]`, without the date. -/
def LineOrder.le : LineOrder → LineOrder → Bool
  | entry t, entry t' => t ≤ t'
  | entry _, charge .. => true
  | charge .., entry _ => false
  | charge type what, charge type' what' => type < type' ∨ type = type' ∧ ¬what' < what

/-- A line of a statement. -/
structure StatementLine where
  date : Day
  type : Text
  description : Text
  quantity : Option Quantity
  deploymentId : Option Text
  amountCents : ℤ
  order : LineOrder

/-- The order of the lines. -/
def StatementLine.le (l l' : StatementLine) : Bool :=
  l.date < l'.date ∨ l.date = l'.date ∧ l.order.le l'.order

/-- `line["amount_usd"]` -/
def StatementLine.amountUsd (l : StatementLine) : ℚ := usd l.amountCents

/-- What a group is called on a statement. -/
def Group.what (kind : Text) (g : Group) : Text :=
  if kind = "inference".toList then "Requests to shared models".toList
  else
    let gpus := match g.info.gpuModel, g.info.gpuCount with
      | some (c :: model), some (n + 1) =>
        ", ".toList ++ Nat.toDigits 10 (n + 1) ++ "× ".toList ++ (c :: model)
      | _, _ => []
    let ended := if g.info.state = some "deleted".toList then " (deleted)".toList else []
    g.info.name ++ gpus ++ ended

/-- The line of a group. -/
def Group.line (k : GroupKey) (g : Group) : StatementLine where
  date := k.day
  type := g.category.typeName
  description := g.what k.kind
  quantity := g.quantity k.kind
  deploymentId := k.ref
  amountCents := -g.cents
  order := .charge g.category.typeName (g.what k.kind)

/-- `str.capitalize` -/
def capitalize : Text → Text
  | [] => []
  | c :: text => c.toUpper :: Text.lower text

/-- `ENTRY_TYPES` -/
def entryTypes : List (Text × Text) :=
  [("topup".toList, "Top-up".toList), ("refund".toList, "Refund".toList),
    ("adjustment".toList, "Adjustment".toList), ("chargeback".toList, "Chargeback".toList),
    ("bonus".toList, "Bonus".toList)]

/-- The line of a row that is not metered. -/
def StatementEntry.line (e : StatementEntry) : StatementLine where
  date := utcDay e.createdAt
  type := (entryTypes.lookup e.kind).getD (capitalize e.kind)
  description := e.description.getD []
  quantity := none
  deploymentId := none
  amountCents := e.amountCents
  order := .entry e.createdAt

/-- What `monthly_statement` returns. -/
structure MonthlyStatement where
  first : Day
  last : Day
  openingBalanceCents : ℤ
  closingBalanceCents : ℤ
  creditsCents : ℤ
  chargesCents : ℤ
  chargesByTypeCents : List (Text × ℤ)
  lines : List StatementLine

/-- A month of a year. -/
structure YearMonth where
  year : ℕ
  month : ℕ
  year_pos : 1 ≤ year
  month_pos : 1 ≤ month
  month_le : month ≤ 12
  deriving DecidableEq

/-- `calendar.isleap` -/
def isLeap (year : ℕ) : Bool := year % 4 = 0 ∧ (year % 100 ≠ 0 ∨ year % 400 = 0)

/-- `_days_before_month`, in a year that is no leap year. -/
def daysBeforeMonth (month : ℕ) : ℕ :=
  [0, 31, 59, 90, 120, 151, 181, 212, 243, 273, 304, 334].getD (month - 1) 0

/-- `_days_before_year` -/
def daysBeforeYear (year : ℕ) : ℕ :=
  (year - 1) * 365 + (year - 1) / 4 - (year - 1) / 100 + (year - 1) / 400

/-- The day that a leap year has before a month. -/
def leapDay (year month : ℕ) : ℕ := if 2 < month ∧ isLeap year then 1 else 0

/-- `date(year, month, 1)` -/
def YearMonth.firstDay (m : YearMonth) : Day :=
  (daysBeforeYear m.year + daysBeforeMonth m.month + leapDay m.year m.month + 1 : ℕ)

/-- The next month. -/
def YearMonth.next (m : YearMonth) : YearMonth :=
  if h : m.month = 12 then ⟨m.year + 1, 1, Nat.le_add_left .., Nat.le_refl _, by decide⟩
  else
    ⟨m.year, m.month + 1, m.year_pos, Nat.le_add_left ..,
      Nat.lt_of_le_of_ne m.month_le h⟩

/-- The number that some digits write. -/
def digits (text : Text) : ℕ := text.foldl (fun n c ↦ 10 * n + (c.toNat - '0'.toNat)) 0

/-- The month that `parse_month` reads, or this month. -/
def parseYearMonth (today : YearMonth) (month : Option Text) : Except Text YearMonth :=
  match month with
  | none | some [] => .ok today
  | some [a, b, c, d, '-', e, f] =>
    let year := digits [a, b, c, d]
    let month := digits [e, f]
    if [a, b, c, d, e, f].all Char.isDigit then
      if h : 1 ≤ year ∧ 1 ≤ month ∧ month ≤ 12 then .ok ⟨year, month, h.1, h.2.1, h.2.2⟩
      else .error "month must be YYYY-MM".toList
    else .error "month must be YYYY-MM".toList
  | _ => .error "month must be YYYY-MM".toList

/-- The dates of `parse_month`: the first day of the month and of the next. -/
def monthDays (m : YearMonth) : Except Text (Day × Day) :=
  if m.next.year ≤ 9999 then .ok (m.firstDay, m.next.firstDay)
  else .error "year 10000 is out of range".toList

/-- `parse_month` -/
def parseMonth (today : YearMonth) (month : Option Text) : Except Text (Day × Day) :=
  (parseYearMonth today month).bind monthDays

namespace Statements

variable (env : StatementEnv)

/-- The lines of some spending, in the order in which they are made. -/
def lines (rows : SpendingRows) : List StatementLine :=
  ((groups env rows.metered).rows.map fun r ↦ r.2.line r.1) ++ rows.entries.map fun r ↦ r.2.line

/-- The charges of each type, the largest first. -/
def chargesByType (lines : List StatementLine) : List (Text × ℤ) :=
  (Table.accumulate StatementLine.type (fun _ ↦ 0) (fun l n ↦ n - l.amountCents) .empty
    (lines.filter fun l ↦ l.amountCents < 0)).rows.mergeSort fun r r' ↦ r'.2 ≤ r.2

/-- The statement of some days. -/
def statement (db : StatementDb) (user : UserId) (first next : Day) : MonthlyStatement :=
  let rows := db.spendingRows user (midnight first) (midnight next)
  let lines := (lines env rows).mergeSort StatementLine.le
  { first := first
    last := next - 1
    openingBalanceCents := rows.openingCents
    closingBalanceCents := rows.closingCents
    creditsCents := ((lines.filter fun l ↦ 0 < l.amountCents).map StatementLine.amountCents).sum
    chargesCents := -((lines.filter fun l ↦ l.amountCents < 0).map StatementLine.amountCents).sum
    chargesByTypeCents := chargesByType lines
    lines := lines }

/-- `monthly_statement` -/
def monthlyStatement (db : StatementDb) (user : UserId) (today : YearMonth) (month : Option Text) :
    Except Text MonthlyStatement := do
  let days ← parseMonth today month
  pure (statement env db user days.1 days.2)

end Statements

end GreenCompute
