import Stoa.Lib.Lines

/-! Dates in headers. -/
namespace Stoa

def dayNames : List String := ["Thu", "Fri", "Sat", "Sun", "Mon", "Tue", "Wed"]

def monthNames : List String :=
  ["Jan", "Feb", "Mar", "Apr", "May", "Jun", "Jul", "Aug", "Sep", "Oct", "Nov", "Dec"]

/-- The `{:02}` format. -/
def twoDigits (n : Int) : String :=
  if (toString n).length < 2 then "0" ++ toString n else toString n

structure CivilDate where
  year : Int
  month : Int
  day : Int
  deriving DecidableEq

def civilDate (daysSinceEpoch : Int) : CivilDate :=
  let z := daysSinceEpoch + 719468
  let era := (if z ≥ 0 then z else z - 146096).tdiv 146097
  let doe := z - era * 146097
  let yoe := (doe - doe.tdiv 1460 + doe.tdiv 36524 - doe.tdiv 146096).tdiv 365
  let y := yoe + era * 400
  let doy := doe - (365 * yoe + yoe.tdiv 4 - yoe.tdiv 100)
  let mp := (5 * doy + 2).tdiv 153
  let d := doy - (153 * mp + 2).tdiv 5 + 1
  let m := if mp < 10 then mp + 3 else mp - 9
  ⟨if m ≤ 2 then y + 1 else y, m, d⟩

/-- Unix seconds as an RFC 2822 date, `Www, DD Mon YYYY HH:MM:SS +0000`. -/
def epochToRfc2822 (secs : Int) : String :=
  let daysSinceEpoch := secs.ediv 86400
  let daySecs := secs.emod 86400
  let sec := daySecs % 60
  let min := daySecs / 60 % 60
  let hour := daySecs / 3600
  let wday := ((daysSinceEpoch.tmod 7 + 7).tmod 7).toNat
  let date := civilDate daysSinceEpoch
  dayNames.getD wday "" ++ ", " ++ twoDigits date.day ++ " " ++
    monthNames.getD (date.month - 1).toNat "" ++ " " ++ toString date.year ++ " " ++
    twoDigits hour ++ ":" ++ twoDigits min ++ ":" ++ twoDigits sec ++ " +0000"

example : epochToRfc2822 1704067200 = "Mon, 01 Jan 2024 00:00:00 +0000" := by decide

theorem oneLine_twoDigits (n : Int) : OneLine (Text.asBytes (twoDigits n)) := by
  unfold twoDigits
  split
  · rw [Text.asBytes_append, oneLine_append]
    exact ⟨by decide, oneLine_intRepr n⟩
  · exact oneLine_intRepr n

theorem oneLine_getD {names : List String} (clean : ∀ s ∈ names, OneLine (Text.asBytes s)) (n : Nat) :
    OneLine (Text.asBytes (names.getD n "")) := by
  rw [List.getD_eq_getElem?_getD]
  cases found : names[n]? with
  | none => decide
  | some s => exact clean s (List.mem_of_getElem? found)

theorem oneLine_epochToRfc2822 (secs : Int) : OneLine (Text.asBytes (epochToRfc2822 secs)) := by
  have days := oneLine_getD (show ∀ s ∈ dayNames, OneLine (Text.asBytes s) by decide)
  have months := oneLine_getD (show ∀ s ∈ monthNames, OneLine (Text.asBytes s) by decide)
  have year : ∀ n : Int, OneLine (Text.asBytes (toString n)) := oneLine_intRepr
  simp only [epochToRfc2822, Text.asBytes_append, oneLine_append, days, months, year,
    oneLine_twoDigits, true_and, and_true]
  decide

end Stoa
