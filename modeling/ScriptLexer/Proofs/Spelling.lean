import ScriptLexer.Proofs.Dispatch
import ScriptLexer.Proofs.LongestMatch

/-! What a token says about the text it was read from. A token that keeps a lexeme keeps its text;
of any other the vocabulary has just one word of its kind, and that word is the text. -/

namespace ScriptLexer

namespace Token

def Spells (token : Token) (text : List Char) : Prop :=
  match token.lexeme with
  | some lexeme => lexeme.toList = text
  | none => token.kind.carriesLexeme = false ∧
      ∀ word, Vocabulary.wordKind? word = some token.kind ↔ word.toList = text

def text (token : Token) : List Char := (token.spelling?.getD "").toList

theorem spells_ofText (kind : TokenKind) (text : List Char) : (ofText kind text).Spells text :=
  String.toList_ofList

end Token

namespace Vocabulary

theorem bareWord?_of_wordKind? {word : String} {kind : TokenKind}
    (known : wordKind? word = some kind) (bare : kind.carriesLexeme = false) :
    bareWord? kind = some word :=
  bareWord?_of_mem (word, kind) (mem_of_lookup known) bare

theorem genuine_of_lookup {α : Type} [BEq α] [LawfulBEq α] {entries : List (α × TokenKind)}
    (table : ∀ kind ∈ entries.map Prod.snd, kind ≠ .eof ∧ kind ≠ .invalid) {key : α}
    {kind : TokenKind} (found : entries.lookup key = some kind) : kind ≠ .eof ∧ kind ≠ .invalid := by
  apply table
  exact List.mem_map_of_mem (mem_of_lookup found)

end Vocabulary

namespace Token

theorem spells_ofWord (text : List Char) : (ofWord text).Spells text := by
  unfold ofWord ofKeyword?
  cases known : Vocabulary.wordKind? (String.ofList text) with
  | none => exact spells_ofText .identifier text
  | some kind =>
      simp only [Option.map_some, Option.getD_some]
      by_cases carries : kind.carriesLexeme = true
      · rw [if_pos carries]
        exact String.toList_ofList
      · have bare : kind.carriesLexeme = false := Bool.eq_false_iff.mpr carries
        rw [if_neg carries]
        refine ⟨bare, fun word => ⟨fun also => ?_, fun same => ?_⟩⟩
        · have first := Vocabulary.bareWord?_of_wordKind? known bare
          have second := Vocabulary.bareWord?_of_wordKind? also bare
          rw [Option.some.inj (second.symm.trans first)]
          exact String.toList_ofList
        · rw [← same, String.ofList_toList] at known
          exact known

theorem text_of_spells {token : Token} {text : List Char} (spells : token.Spells text) :
    token.text = text := by
  unfold Spells at spells
  unfold Token.text spelling?
  cases present : token.lexeme with
  | some lexeme =>
      rw [present] at spells
      exact spells
  | none =>
      rw [present] at spells
      obtain ⟨bare, only⟩ := spells
      have known : Vocabulary.wordKind? (String.ofList text) = some token.kind :=
        (only _).mpr String.toList_ofList
      have found := Vocabulary.bareWord?_of_wordKind? known bare
      simp [found]

theorem ofWord_genuine (text : List Char) :
    (ofWord text).kind ≠ .eof ∧ (ofWord text).kind ≠ .invalid := by
  unfold ofWord ofKeyword?
  cases known : Vocabulary.wordKind? (String.ofList text) with
  | none => simp [ofText]
  | some kind =>
      have genuine := Vocabulary.genuine_of_lookup (by decide) known
      simp only [Option.map_some, Option.getD_some]
      split <;> exact genuine

end Token

namespace Scan

/-- What an accepting scan gives: a token that spells the text read, with nothing passed over. -/
structure Accepts (scan : Scan) (token : Token) : Prop where
  spells : token.Spells scan.seen
  skipped : scan.skipped = []
  genuine : token.kind ≠ .eof ∧ token.kind ≠ .invalid

def Sound (scan : Scan) : Prop := ∀ token, scan.verdict = .token token → scan.Accepts token

theorem sound_reject (code : ErrorCode) (seen skipped rest : List Char) :
    (reject code seen skipped rest).Sound := by
  intro token accepted
  cases accepted

theorem sound_accept {token : Token} {seen : List Char} (rest : List Char)
    (spells : token.Spells seen) (genuine : token.kind ≠ .eof ∧ token.kind ≠ .invalid) :
    (accept token seen rest).Sound := by
  intro other accepted
  obtain rfl := Verdict.token.inj accepted
  exact ⟨spells, rfl, genuine⟩

theorem sound_acceptText {kind : TokenKind} (seen rest : List Char)
    (genuine : kind ≠ .eof ∧ kind ≠ .invalid) :
    (accept (Token.ofText kind seen) seen rest).Sound :=
  sound_accept rest (Token.spells_ofText kind seen) genuine

theorem punctuator_sound (c : Char) (text : List Char) : (punctuator c text).Sound := by
  unfold punctuator
  split
  · rename_i length kind found
    exact sound_acceptText _ _ (Vocabulary.genuine_of_lookup (by decide) (longest_take found).known)
  · exact sound_reject _ _ _ _

theorem structural_sound (c : Char) (text : List Char) : (structural c text).Sound := by
  unfold structural
  split
  · rename_i kind found
    exact sound_acceptText _ _ (Vocabulary.genuine_of_lookup (by decide) found)
  · exact sound_reject _ _ _ _

theorem lineComment_sound (text : List Char) : (lineComment text).Sound :=
  sound_acceptText _ _ (by decide)

theorem blockComment_sound (text : List Char) : (blockComment text).Sound := by
  unfold blockComment
  split
  · exact sound_acceptText _ _ (by decide)
  · exact sound_reject _ _ _ _

theorem number_sound (text : List Char) : (number text).Sound := by
  unfold number
  simp only
  split
  · exact sound_reject _ _ _ _
  · split
    · split
      · exact sound_reject _ _ _ _
      · exact sound_acceptText _ _ (by decide)
    · exact sound_acceptText _ _ (by decide)

theorem quoted_sound (quote : Char) (text : List Char) : (quoted quote text).Sound := by
  unfold quoted
  simp only
  split
  · exact sound_reject _ _ _ _
  · exact sound_acceptText _ _ (by decide)

theorem word_sound (text : List Char) : (word text).Sound :=
  sound_accept _ (Token.spells_ofWord _) (Token.ofWord_genuine _)

theorem leading_sound (c : Char) (text : List Char) : (leading c text).Sound := by
  have scanned := dispatch c text
  generalize leading c text = scan at scanned
  cases scanned with
  | line body => exact lineComment_sound body
  | block body => exact blockComment_sound body
  | number => exact number_sound (c :: text)
  | operator => exact punctuator_sound c text
  | literal => exact quoted_sound c text
  | word => exact word_sound (c :: text)
  | structural => exact structural_sound c text

end Scan
end ScriptLexer
