import Mathlib
import ScriptLexer.Proofs.RewrittenDrain

/-! Line endings. A text whose lines end in line feeds is lexed as it is with carriage returns in
their place, alone or in front of line feeds. -/

namespace ScriptLexer

def lineEnd (ending : List Char) (c : Char) : List Char := if c = '\n' then ending else [c]

def withLineEnds (ending text : List Char) : List Char := text.flatMap (lineEnd ending)

theorem lineEnd_of_ne (ending : List Char) {c : Char} (other : c ≠ '\n') :
    lineEnd ending c = [c] := if_neg other

theorem lineEnd_of_member (ending : List Char) {holds : Char → Bool} (outside : holds '\n' = false)
    {c : Char} (member : holds c = true) : lineEnd ending c = [c] := by
  apply lineEnd_of_ne
  rintro rfl
  exact Bool.false_ne_true (outside.symm.trans member)

section Convention

variable {ending : List Char} (convention : ending = ['\r', '\n'] ∨ ending = ['\r'])
include convention

theorem mem_ending {d : Char} (member : d ∈ ending) : d = '\r' ∨ d = '\n' := by
  rcases convention with rfl | rfl <;> simp_all

theorem rewriting_lineEnd : Rewriting (lineEnd ending) where
  plain := by
    intro c plain
    exact lineEnd_of_member ending (by decide) plain
  quote := by
    intro c quoting
    exact ⟨c, quoting, lineEnd_of_member ending (by decide) quoting⟩
  apart := by
    intro c d quoting also same
    rw [lineEnd_of_member ending (by decide) quoting,
      lineEnd_of_member ending (by decide) also] at same
    exact (List.cons.inj same).1
  blank := by
    intro c _
    unfold lineEnd
    split
    · rcases convention with rfl | rfl <;> exact List.cons_ne_nil _ _
    · exact List.cons_ne_nil c []
  alike := by
    intro c blank d member
    by_cases feed : c = '\n'
    · subst feed
      rcases mem_ending convention member with rfl | rfl <;> decide
    · rw [lineEnd_of_ne ending feed] at member
      obtain rfl := List.mem_singleton.mp member
      exact ⟨blank, rfl, rfl⟩
  single := by
    intro c outside
    refine ⟨c, lineEnd_of_ne ending ?_⟩
    rintro rfl
    exact absurd outside (by decide)

/-- A pair ends one line, and a carriage return by itself never comes to stand in front of a line
feed. -/
theorem keepsLines_lineEnd : KeepsLines (lineEnd ending) (· ≠ '\r') := by
  intro c following single singles
  by_cases feed : c = '\n'
  · subst feed
    rcases convention with rfl | rfl
    · rfl
    · have apart : ∀ d ∈ following.flatMap (lineEnd ['\r']), d ≠ '\n' := by
        rintro d member rfl
        obtain ⟨e, _, becomes⟩ := List.mem_flatMap.mp member
        by_cases feed : e = '\n'
        · subst feed
          exact absurd becomes (by decide)
        · rw [lineEnd_of_ne _ feed] at becomes
          exact feed (List.mem_singleton.mp becomes).symm
      have next : (following.flatMap (lineEnd ['\r'])).head? ≠ some '\n' := by
        intro first
        exact apart '\n' (List.mem_of_mem_head? first) rfl
      have ends : Cursor.endsLine '\r' (following.flatMap (lineEnd ['\r'])).head? = true := by
        have differs : ((following.flatMap (lineEnd ['\r'])).head? == some '\n') = false :=
          beq_eq_false_iff_ne.mpr next
        rw [Cursor.endsLine, differs]
        decide
      change (if Cursor.endsLine '\r' (following.flatMap (lineEnd ['\r'])).head? then 1 else 0) + 0 =
        lineEnds ['\n'] following
      rw [ends]
      rfl
  · rw [lineEnd_of_ne ending feed]
    apply lineEnds_congr
    right
    simpa using single

end Convention

namespace Lexer

/-- How lines end does not show: with every line feed of a text rewritten, each pull gives the same
token with its lexeme rewritten, the same report, and the same line and errors, and so does the pull
that meets the end. -/
theorem drain_withLineEnds {ending text : List Char}
    (convention : ending = ['\r', '\n'] ∨ ending = ['\r']) (feeds : '\r' ∉ text) (source : String) :
    let lexer := Lexer.ofText text source
    let changed := Lexer.ofText (withLineEnds ending text) source
    List.Forall₂ (Pull.Rewritten (lineEnd ending)) lexer.drain.1 changed.drain.1 ∧
      Rewritten (lineEnd ending) lexer.drain.2 changed.drain.2 := by
  intro lexer changed
  have start : Rewritten (lineEnd ending) lexer changed := ⟨rfl, rfl, rfl, rfl⟩
  apply start.drain (rewriting_lineEnd convention) (keepsLines_lineEnd convention)
  rintro c member rfl
  exact feeds member

/-- The carriage return of a pair is what the backslash takes along, in a literal and in what is
passed over behind a fault; the line feed of it is raw. -/
theorem drain_withLineEnds_escaped :
    let text := ['\'', '\\', '\n', '\'', '@', '\n', '\'', '\\', 'u', '\\', '\n', '\'', '#']
    let changed := Lexer.ofText (withLineEnds ['\r', '\n'] text) "s"
    '\r' ∉ text ∧
      List.Forall₂ (Pull.Rewritten (lineEnd ['\r', '\n'])) (Lexer.ofText text "s").drain.1
        changed.drain.1 ∧
      changed.reports = [⟨"s", .unexpectedToken, 2⟩, ⟨"s", .hexadecimalDigitExpected, 3⟩,
        ⟨"s", .unexpectedToken, 4⟩] := by
  intro text changed
  have feeds : '\r' ∉ text := by decide
  refine ⟨feeds, (drain_withLineEnds (.inl rfl) feeds "s").1, ?_⟩
  unfold changed text
  cbv

end Lexer
end ScriptLexer
