import Mathlib.Data.List.DropRight
import Mathlib.Data.List.Induction
import Mathlib.Tactic.NormNum

/-! The results behind the web dashboard: a bounded history, the counts of verdicts, and what the
endpoints answer from them. An update and an answer each hold the mutex; the numbers of the counts
are not bounded here, and time stamps of the server are left out. -/

namespace SurfaceAi.Web

/-- `F` is the type of severities. -/
structure InspectionSummary (F : Type) where
  frameId : ℤ
  verdict : String
  severity : F
  recommendation : String
  defects : List String
  timestamp : String
  deriving DecidableEq, Repr

/-- An entry of the lists that the endpoints answer. -/
structure ResultItem (F : Type) where
  frameId : ℤ
  verdict : String
  severity : F
  defects : List String
  deriving DecidableEq, Repr

structure StatusReply where
  ok : ℕ
  ng : ℕ
  warn : ℕ
  uncertain : ℕ
  total : ℕ
  deriving DecidableEq, Repr

structure HttpServer (F : Type) where
  history : List (InspectionSummary F)
  okCount : ℕ
  ngCount : ℕ
  warnCount : ℕ
  uncertainCount : ℕ

def kMaxHistory : ℕ := 1000

variable {F : Type}

def InspectionSummary.item (r : InspectionSummary F) : ResultItem F :=
  ⟨r.frameId, r.verdict, r.severity, r.defects⟩

namespace HttpServer

def create : HttpServer F := ⟨[], 0, 0, 0, 0⟩

variable (server : HttpServer F)

def pushHistory (summary : InspectionSummary F) : List (InspectionSummary F) :=
  let history := server.history ++ [summary]
  if history.length > kMaxHistory then history.drop (history.length - kMaxHistory) else history

def updateResult (summary : InspectionSummary F) : HttpServer F :=
  let server := { server with history := server.pushHistory summary }
  if summary.verdict = "OK" then { server with okCount := server.okCount + 1 }
  else if summary.verdict = "NG" then { server with ngCount := server.ngCount + 1 }
  else if summary.verdict = "WARN" then { server with warnCount := server.warnCount + 1 }
  else { server with uncertainCount := server.uncertainCount + 1 }

/-- `/api/status`. -/
def status : StatusReply where
  ok := server.okCount
  ng := server.ngCount
  warn := server.warnCount
  uncertain := server.uncertainCount
  total := server.okCount + server.ngCount + server.warnCount + server.uncertainCount

/-- `/api/results/latest`. -/
def latest : Option (InspectionSummary F) := server.history.getLast?

/-- `static_cast<std::size_t>` of an `int`. -/
def toSize (limit : ℤ) : ℕ := (limit % (2 ^ 64 : ℕ)).toNat

/-- `/api/results/history`, for the number that the parameter is read as. -/
def historyItems (limit : ℤ) : List (ResultItem F) :=
  let start := if server.history.length > toSize limit then
    server.history.length - toSize limit else 0
  (server.history.drop start).map InspectionSummary.item

/-- The loop of `/api/alerts`, from the newest result on; it stops at the twentieth alert. -/
def collectAlerts : List (InspectionSummary F) → List (ResultItem F) → List (ResultItem F)
  | [], alerts => alerts
  | r :: rest, alerts =>
    if r.verdict ≠ "OK" then
      if (alerts ++ [r.item]).length ≥ 20 then alerts ++ [r.item]
      else collectAlerts rest (alerts ++ [r.item])
    else collectAlerts rest alerts

/-- `/api/alerts`. -/
def alerts : List (ResultItem F) := collectAlerts server.history.reverse []

/-- The server after some results. -/
def after (results : List (InspectionSummary F)) : HttpServer F :=
  results.foldl updateResult create

/-! ### Runs -/

section Runs

variable (results : List (InspectionSummary F)) (summary : InspectionSummary F)

theorem rtake_rtake {α : Type*} (xs : List α) {m n : ℕ} (h : m ≤ n) :
    (xs.rtake n).rtake m = xs.rtake m := by
  rw [List.rtake_eq_reverse_take_reverse, List.rtake_eq_reverse_take_reverse,
    List.rtake_eq_reverse_take_reverse, List.reverse_reverse, List.take_take, Nat.min_eq_left h]

theorem length_rtake {α : Type*} (xs : List α) (n : ℕ) :
    (xs.rtake n).length = min n xs.length := by
  rw [List.rtake, List.length_drop]
  omega

/-- Dropping from the front leaves as many of the newest results as there may be. -/
theorem pushHistory_eq {server : HttpServer F} (h : server.history = results.rtake kMaxHistory) :
    server.pushHistory summary = (results ++ [summary]).rtake kMaxHistory := by
  have hdrop : server.pushHistory summary = (server.history ++ [summary]).rtake kMaxHistory := by
    unfold pushHistory List.rtake
    dsimp only
    split_ifs with hlong
    · rfl
    · have hzero : (server.history ++ [summary]).length - kMaxHistory = 0 := by omega
      rw [hzero, List.drop_zero]
  have hmax : kMaxHistory = 999 + 1 := rfl
  rw [hdrop, h, hmax, List.rtake_concat_succ, List.rtake_concat_succ,
    rtake_rtake results (Nat.le_succ 999)]

theorem updateResult_history (server : HttpServer F) :
    (server.updateResult summary).history = server.pushHistory summary := by
  unfold updateResult
  split_ifs <;> rfl

theorem history_after : (after results).history = results.rtake kMaxHistory := by
  induction results using List.reverseRecOn with
  | nil =>
    rw [List.rtake_nil]
    rfl
  | append_singleton results summary ih =>
    rw [after, List.foldl_append]
    exact (updateResult_history summary _).trans (pushHistory_eq results summary ih)

/-- How many results have a verdict. -/
def countOf (verdict : String) : ℕ := results.countP fun r => r.verdict = verdict

theorem status_after : (after results).status =
    ⟨countOf results "OK", countOf results "NG", countOf results "WARN",
      results.length - countOf results "OK" - countOf results "NG" - countOf results "WARN",
      results.length⟩ ∧
    countOf results "OK" + countOf results "NG" + countOf results "WARN" ≤ results.length := by
  unfold countOf
  induction results using List.reverseRecOn with
  | nil => exact ⟨rfl, Nat.le_refl _⟩
  | append_singleton results summary ih =>
    have hafter : after (results ++ [summary]) = (after results).updateResult summary := by
      rw [after, List.foldl_append]
      rfl
    obtain ⟨hstatus, hle⟩ := ih
    rw [hafter]
    simp only [status, StatusReply.mk.injEq] at hstatus
    unfold updateResult status
    simp only [List.countP_append, List.countP_singleton, List.length_append,
      List.length_singleton]
    split_ifs <;> simp_all <;> omega

theorem collectAlerts_eq (rest : List (InspectionSummary F)) (alerts : List (ResultItem F))
    (h : alerts.length < 20) : collectAlerts rest alerts =
      alerts ++ ((rest.filter fun r => r.verdict ≠ "OK").take (20 - alerts.length)).map
        InspectionSummary.item := by
  induction rest generalizing alerts with
  | nil => simp [collectAlerts]
  | cons r rest ih =>
    rw [collectAlerts]
    have hsucc : 20 - alerts.length = (20 - (alerts ++ [r.item]).length) + 1 := by
      rw [List.length_append, List.length_singleton]
      omega
    split_ifs with hok hfull
    · have hlast : 20 - (alerts ++ [r.item]).length = 0 := by omega
      rw [List.filter_cons_of_pos (by simpa using hok), hsucc, List.take_succ_cons, hlast]
      rfl
    · rw [ih _ (by omega), List.filter_cons_of_pos (by simpa using hok), hsucc,
        List.take_succ_cons, List.append_assoc]
      rfl
    · rw [ih _ h, List.filter_cons_of_neg (by simpa using hok)]

theorem toSize_of_nonneg {limit : ℤ} (h : 0 ≤ limit) (hlt : limit < 2 ^ 31) :
    toSize limit = limit.toNat := by
  rw [toSize, Int.emod_eq_of_lt h (by norm_num; omega)]

theorem toSize_of_neg {limit : ℤ} (h : limit < 0) (hle : -2 ^ 31 ≤ limit) :
    kMaxHistory < toSize limit := by
  have hmod : limit % ((2 ^ 64 : ℕ) : ℤ) = limit + 2 ^ 64 := by
    rw [← Int.add_emod_right]
    exact Int.emod_eq_of_lt (by norm_num; omega) (by norm_num; omega)
  rw [toSize, hmod, kMaxHistory]
  omega

theorem historyItems_eq (limit : ℤ) :
    (after results).historyItems limit =
      (results.rtake (min (toSize limit) kMaxHistory)).map InspectionSummary.item := by
  have hstart : (if (after results).history.length > toSize limit then
      (after results).history.length - toSize limit else 0) =
        (after results).history.length - toSize limit := by
    split_ifs <;> omega
  unfold historyItems
  dsimp only
  rw [hstart, ← List.rtake, history_after]
  rcases Nat.le_total (toSize limit) kMaxHistory with hle | hle
  · rw [rtake_rtake results hle, Nat.min_eq_left hle]
  · have hall : (results.rtake kMaxHistory).rtake (toSize limit) = results.rtake kMaxHistory := by
      have hlength := length_rtake results kMaxHistory
      have hzero : (results.rtake kMaxHistory).length - toSize limit = 0 := by omega
      rw [List.rtake, hzero, List.drop_zero]
    rw [hall, Nat.min_eq_right hle]

/-- What the endpoints answer after some results. -/
structure Reports (results : List (InspectionSummary F)) (server : HttpServer F) : Prop where
  total : server.status.total = results.length
  ok : server.status.ok = countOf results "OK"
  ng : server.status.ng = countOf results "NG"
  warn : server.status.warn = countOf results "WARN"
  sum : server.status.ok + server.status.ng + server.status.warn + server.status.uncertain =
    results.length
  latest : server.latest = results.getLast?
  newest : ∀ limit : ℤ, 0 ≤ limit → limit < 2 ^ 31 → server.historyItems limit =
    (results.rtake (min limit.toNat kMaxHistory)).map InspectionSummary.item
  everything : ∀ limit : ℤ, limit < 0 → -2 ^ 31 ≤ limit → server.historyItems limit =
    (results.rtake kMaxHistory).map InspectionSummary.item
  alerts : server.alerts = ((((results.rtake kMaxHistory).reverse.filter fun r =>
    r.verdict ≠ "OK").take 20).map InspectionSummary.item)

end Runs

end HttpServer

end SurfaceAi.Web
