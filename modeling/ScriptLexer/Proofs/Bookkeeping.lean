import Mathlib.Data.List.DropRight
import ScriptLexer.Proofs.LineReports
import ScriptLexer.Proofs.Requests

/-! The three records of what goes wrong in a session: the invalid tokens, the log, and the errors
by line. The log has every report that was ever made, under the name in force at the time; the
errors by line have those since the last reset. -/

namespace ScriptLexer

structure Production where
  source : String
  pull : Pull

namespace Production

def isInvalid (production : Production) : Bool := production.pull.token.isInvalid

def report? (production : Production) : Option Diagnostic := production.pull.report?

/-- An invalid token comes with a report under the name in force, any other without one. -/
structure Reported (production : Production) : Prop where
  invalid : production.isInvalid = production.report?.isSome
  source : ∀ report ∈ production.report?, report.source = production.source

theorem invalid_logged {productions : List Production}
    (reported : ∀ production ∈ productions, production.Reported) :
    List.Forall₂
      (fun production entry => production.report? = some entry ∧ entry.source = production.source)
      (productions.filter isInvalid) (productions.filterMap report?) := by
  induction productions with
  | nil => exact .nil
  | cons production productions ih =>
      obtain ⟨invalid, source⟩ := reported production (List.mem_cons_self ..)
      have others := ih fun other member => reported other (List.mem_cons_of_mem _ member)
      cases made : production.report? with
      | none =>
          rw [made] at invalid
          rw [List.filterMap_cons_none made, List.filter_cons_of_neg (by rw [invalid]; simp)]
          exact others
      | some report =>
          rw [made] at invalid
          rw [List.filterMap_cons_some made, List.filter_cons_of_pos (by rw [invalid]; rfl)]
          exact .cons ⟨made, source report made⟩ others

theorem any_isInvalid {productions : List Production}
    (reported : ∀ production ∈ productions, production.Reported) :
    productions.any isInvalid = true ↔ productions.filterMap report? ≠ [] := by
  have same := (invalid_logged reported).length_eq
  rw [← List.length_pos_iff, ← same, List.length_pos_iff]
  simp

end Production

namespace Session

def Request.isReset : Request → Bool
  | .reset => true
  | .resetTo _ => true
  | _ => false

def Request.naming (source : String) : Request → String
  | .rename name => name
  | _ => source

def naming (source : String) (requests : List Request) : String :=
  requests.foldl Request.naming source

def productions (source : String) (session : Session) : List Request → List Production
  | [] => []
  | request :: requests =>
      (session.pulls request).map (Production.mk source) ++
        (session.handle request).2.productions (request.naming source) requests

def produced (text : List Char) (requests : List Request) : List Production :=
  (start text).productions Lexer.defaultSource requests

def untilReset (requests : List Request) : List Request :=
  requests.rdropWhile fun request => !request.isReset

def sinceReset (requests : List Request) : List Request :=
  requests.rtakeWhile fun request => !request.isReset

/-- What a session over `text` has produced since its last reset, or since its start. -/
def recentlyProduced (text : List Char) (requests : List Request) : List Production :=
  (produced text requests).drop (produced text (untilReset requests)).length

def recentlyLogged (text : List Char) (requests : List Request) : List Diagnostic :=
  ((start text).after requests).log.entries.drop
    ((start text).after (untilReset requests)).log.count

theorem handle_source (session : Session) (request : Request) :
    (session.handle request).2.lexer.source = request.naming session.lexer.source := by
  rw [handle_session]
  cases request with
  | rename => rfl
  | _ => exact Lexer.pull_source _ _

theorem handle_log (session : Session) (request : Request) :
    (session.handle request).2.log =
      session.log.append ((session.pulls request).filterMap Pull.report?) := by
  rw [handle_session]
  rfl

theorem handle_errors {request : Request} (kept : request.isReset = false) (session : Session) :
    (session.handle request).2.lexer.errors =
      session.lexer.errors.note ((session.pulls request).filterMap Pull.report?) := by
  rw [handle_session]
  cases request with
  | reset => cases kept
  | resetTo => cases kept
  | _ => exact Lexer.pull_errors _ _

theorem handle_errors_of_isReset {request : Request} (cleared : request.isReset = true)
    (session : Session) : (session.handle request).2.lexer.errors = .empty := by
  cases request with
  | reset => rfl
  | resetTo => rfl
  | _ => cases cleared

theorem pulls_reported (session : Session) (request : Request) :
    ∀ pull ∈ session.pulls request, (Production.mk session.lexer.source pull).Reported := by
  intro pull member
  obtain ⟨before, name, found, rfl⟩ := Lexer.mem_pull member
  obtain ⟨invalid, source⟩ := Lexer.next_report?_of_found found
  exact ⟨Bool.eq_iff_iff.mpr invalid, fun report made => (source report made).trans name⟩

theorem productions_reports (source : String) (session : Session) (request : Request)
    (requests : List Request) :
    (session.productions source (request :: requests)).filterMap Production.report? =
      (session.pulls request).filterMap Pull.report? ++
        ((session.handle request).2.productions (request.naming source) requests).filterMap
          Production.report? := by
  rw [productions, List.filterMap_append, List.filterMap_map]
  rfl

section Run

variable (requests : List Request) (session : Session)

theorem after_source : (session.after requests).lexer.source =
    naming session.lexer.source requests := by
  induction requests generalizing session with
  | nil => rfl
  | cons request requests ih => rw [after_cons, ih, handle_source]; rfl

theorem after_log (source : String) : (session.after requests).log =
    session.log.append ((session.productions source requests).filterMap Production.report?) := by
  induction requests generalizing session source with
  | nil => exact (congrArg log (session.record_nil session.lexer)).symm
  | cons request requests ih =>
      rw [after_cons, ih _ (request.naming source), handle_log, productions_reports,
        Log.append_append]

theorem after_errors (kept : ∀ request ∈ requests, request.isReset = false) (source : String) :
    (session.after requests).lexer.errors = session.lexer.errors.note
      ((session.productions source requests).filterMap Production.report?) := by
  induction requests generalizing session source with
  | nil => rfl
  | cons request requests ih =>
      have first := kept request (List.mem_cons_self ..)
      have others := fun other member => kept other (List.mem_cons_of_mem request member)
      rw [after_cons, ih _ others (request.naming source), handle_errors first,
        productions_reports, LineErrors.note_append]

theorem productions_reported : ∀ production ∈ session.productions session.lexer.source requests,
    production.Reported := by
  induction requests generalizing session with
  | nil => intro production member; cases member
  | cons request requests ih =>
      intro production member
      rcases List.mem_append.mp member with first | later
      · obtain ⟨pull, made, rfl⟩ := List.mem_map.mp first
        exact session.pulls_reported request pull made
      · apply ih (session.handle request).2
        rw [handle_source]
        exact later

theorem replies_deliver (source : String) : ∃ parts,
    List.Forall₂ Reply.Delivers (session.replies requests) parts ∧
      parts.flatten = (session.productions source requests).map fun made => made.pull.token := by
  induction requests generalizing session source with
  | nil => exact ⟨[], .nil, rfl⟩
  | cons request requests ih =>
      obtain ⟨parts, delivered, flat⟩ :=
        ih (session.handle request).2 (request.naming source)
      refine ⟨tokens (session.pulls request) :: parts,
        .cons (session.handle_delivers request) delivered, ?_⟩
      rw [List.flatten_cons, flat, productions, List.map_append, List.map_map, tokens, pulls,
        Lexer.pull_token?]
      rfl

end Run

theorem productions_append (source : String) (session : Session) (first second : List Request) :
    session.productions source (first ++ second) = session.productions source first ++
      (session.after first).productions (naming source first) second := by
  induction first generalizing session source with
  | nil => rfl
  | cons request requests ih =>
      rw [List.cons_append, productions, productions, ih, after_cons, List.append_assoc]
      rfl

theorem errors_untilReset (text : List Char) (requests : List Request) :
    ((start text).after (untilReset requests)).lexer.errors = .empty := by
  by_cases nothing : untilReset requests = []
  · rw [nothing]
    rfl
  · have stopped := List.rdropWhile_last_not _ _ nothing
    have cleared : ((untilReset requests).getLast nothing).isReset = true := by
      simpa [untilReset] using stopped
    have reached := after_append (start text) (untilReset requests).dropLast
      [(untilReset requests).getLast nothing]
    rw [List.dropLast_append_getLast] at reached
    rw [reached]
    exact handle_errors_of_isReset cleared _

theorem sinceReset_not_isReset (requests : List Request) :
    ∀ request ∈ sinceReset requests, request.isReset = false := by
  intro request member
  simpa using List.mem_rtakeWhile_imp member

section Recent

variable (text : List Char) (requests : List Request)

theorem until_append_since : untilReset requests ++ sinceReset requests = requests :=
  List.rdropWhile_append_rtakeWhile

theorem after_since : (start text).after requests =
    ((start text).after (untilReset requests)).after (sinceReset requests) := by
  rw [← after_append, until_append_since]

theorem recentlyProduced_eq : recentlyProduced text requests =
    ((start text).after (untilReset requests)).productions
      ((start text).after (untilReset requests)).lexer.source (sinceReset requests) := by
  have parts := productions_append Lexer.defaultSource (start text) (untilReset requests)
    (sinceReset requests)
  rw [until_append_since] at parts
  rw [recentlyProduced, produced, produced, parts, List.drop_left, after_source]
  rfl

theorem recentlyLogged_eq : recentlyLogged text requests =
    (recentlyProduced text requests).filterMap Production.report? := by
  rw [recentlyLogged, recentlyProduced_eq, after_since text requests,
    after_log (sinceReset requests)]
  exact List.drop_left

theorem errors_eq_ofReports : ((start text).after requests).lexer.errors =
    .ofReports (recentlyLogged text requests) := by
  rw [recentlyLogged_eq, recentlyProduced_eq, after_since text requests,
    after_errors _ _ (sinceReset_not_isReset requests), errors_untilReset, LineErrors.note_empty]

theorem any_recentlyProduced : (recentlyProduced text requests).any Production.isInvalid = true ↔
    recentlyLogged text requests ≠ [] := by
  rw [recentlyLogged_eq]
  apply Production.any_isInvalid
  rw [recentlyProduced_eq]
  exact productions_reported _ _

theorem failure?_after : ((start text).after requests).lexer.failure? =
    if (recentlyProduced text requests).any Production.isInvalid then
      some ⟨naming Lexer.defaultSource requests, ((start text).after requests).lexer.errors⟩
    else none := by
  have name := after_source requests (start text)
  have invalid := any_recentlyProduced text requests
  have clean := LineErrors.isEmpty_ofReports (recentlyLogged text requests)
  rw [← errors_eq_ofReports] at clean
  rw [Lexer.failure?, name]
  by_cases nothing : recentlyLogged text requests = []
  · rw [if_pos (clean.mpr nothing), if_neg fun some => invalid.mp some nothing]
  · rw [if_neg fun empty => nothing (clean.mp empty), if_pos (invalid.mpr nothing)]
    rfl

end Recent

theorem mem_productions {production : Production} {source : String} {session : Session}
    {requests : List Request} (member : production ∈ session.productions source requests) :
    ∃ before : Lexer, before.next = production.pull := by
  induction requests generalizing session source with
  | nil => cases member
  | cons request requests ih =>
      rcases List.mem_append.mp member with first | later
      · obtain ⟨pull, made, rfl⟩ := List.mem_map.mp first
        obtain ⟨before, _, _, given⟩ := Lexer.mem_pull made
        exact ⟨before, given⟩
      · exact ih later

section Report

variable {text : List Char} {requests : List Request}

theorem exists_pull_of_mem_log {report : Diagnostic}
    (logged : report ∈ ((start text).after requests).log.entries) :
    ∃ before : Lexer, before.next.report? = some report := by
  rw [after_log requests _ Lexer.defaultSource] at logged
  obtain ⟨production, produced, made⟩ := List.mem_filterMap.mp logged
  obtain ⟨before, given⟩ := mem_productions produced
  exact ⟨before, (congrArg Pull.report? given).trans made⟩

theorem exists_logged_of_mem_errors {line : Nat} {code : ErrorCode}
    (member : (line, code) ∈ ((start text).after requests).lexer.errors.entries) :
    ∃ report ∈ ((start text).after requests).log.entries, report.code = code := by
  rw [errors_eq_ofReports, LineErrors.mem_entries_ofReports] at member
  obtain ⟨report, last, same⟩ := Option.map_eq_some_iff.mp member
  have recent := List.mem_of_mem_filter (List.mem_of_getLast? last)
  exact ⟨report, List.mem_of_mem_drop recent, same⟩

end Report

structure OnRecord (text : List Char) (requests : List Request) (session : Session) : Prop where
  delivered : ∃ parts, List.Forall₂ Reply.Delivers ((start text).replies requests) parts ∧
    parts.flatten = (produced text requests).map fun production => production.pull.token
  grows : ∀ more, session.log.entries <+: (session.after more).log.entries
  logged : List.Forall₂
    (fun production entry => production.report? = some entry ∧ entry.source = production.source)
    ((produced text requests).filter Production.isInvalid) session.log.entries
  ascending : (session.lexer.errors.entries.map Prod.fst).Pairwise (· < ·)
  last : ∀ line code, (line, code) ∈ session.lexer.errors.entries ↔
    LineErrors.lastOn? line (recentlyLogged text requests) = some code
  outcome : (session.handle .finish).1 = .outcome
    (if (recentlyProduced text requests).any Production.isInvalid then
      some ⟨naming Lexer.defaultSource requests, session.lexer.errors⟩
    else none)
  message : (LexFailure.mk (naming Lexer.defaultSource requests) session.lexer.errors).message =
    toString ((recentlyLogged text requests).map Diagnostic.line).dedup.length ++
      " lexical error(s) in " ++ naming Lexer.defaultSource requests

/-- In whatever order a session is asked: the log has one entry for each invalid token, delivered or
counted; the errors by line are those logged since the last reset, and `finish` fails if there are
any. -/
theorem requests_on_record (text : List Char) (requests : List Request) :
    OnRecord text requests ((start text).after requests) := by
  have errors := errors_eq_ofReports text requests
  constructor
  case delivered => exact replies_deliver requests (start text) Lexer.defaultSource
  case grows =>
    intro more
    rw [after_log more _ Lexer.defaultSource]
    exact List.prefix_append _ _
  case logged =>
    rw [after_log requests _ Lexer.defaultSource]
    exact Production.invalid_logged (productions_reported requests (start text))
  case ascending =>
    rw [errors]
    exact LineErrors.ascending_entries_ofReports _
  case last =>
    rw [errors]
    exact LineErrors.mem_entries_ofReports _
  case outcome => exact congrArg Reply.outcome (failure?_after text requests)
  case message => rw [LexFailure.message, errors, LineErrors.count_ofReports]

/-- A name counts from when it is given, and a reset leaves the log as it is. -/
example :
    let session := (start ['#', '\n', '@']).after [.next, .rename "b", .take 2, .reset]
    session.log.entries.map Diagnostic.source = ["<input>", "b"] ∧
      session.lexer.errors = .empty := by
  cbv

end Session
end ScriptLexer
