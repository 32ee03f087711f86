import ScriptLexer.Proofs.Dispatch
import ScriptLexer.Proofs.Literal
import ScriptLexer.Proofs.LongestMatch
import ScriptLexer.Proofs.Numeral
import ScriptLexer.Proofs.Rewriting

/-! Scans of rewritten texts. Every scanner takes from a rewritten text what it takes from the text,
rewritten, and comes to the same verdict. -/

namespace ScriptLexer

namespace Token

def mapLexeme (change : List Char → List Char) (token : Token) : Token :=
  { token with lexeme := token.lexeme.map fun text => String.ofList (change text.toList) }

variable {change : List Char → List Char}

theorem mapLexeme_ofText (kind : TokenKind) (text : List Char) :
    (ofText kind text).mapLexeme change = ofText kind (change text) := by
  rw [mapLexeme, ofText, Option.map_some, String.toList_ofList]
  rfl

theorem mapLexeme_ofWord {text : List Char} (same : change text = text) :
    (ofWord text).mapLexeme change = ofWord text := by
  unfold ofWord ofKeyword?
  cases Vocabulary.wordKind? (String.ofList text) with
  | none =>
      simp only [Option.map_none, Option.getD_none, mapLexeme_ofText, same]
  | some kind =>
      simp only [Option.map_some, Option.getD_some]
      split
      · rw [mapLexeme, Option.map_some, String.toList_ofList, same]
      · rfl

end Token

namespace Verdict

def mapLexeme (change : List Char → List Char) : Verdict → Verdict
  | .token accepted => .token (accepted.mapLexeme change)
  | .fault code => .fault code

theorem asToken_mapLexeme (change : List Char → List Char) (verdict : Verdict) :
    (verdict.mapLexeme change).asToken = verdict.asToken.mapLexeme change := by
  cases verdict <;> rfl

theorem fault?_mapLexeme (change : List Char → List Char) (verdict : Verdict) :
    (verdict.mapLexeme change).fault? = verdict.fault? := by
  cases verdict <;> rfl

end Verdict

namespace Scan

def rewrite (image : Char → List Char) (scan : Scan) : Scan :=
  ⟨scan.verdict.mapLexeme (List.flatMap image), scan.seen.flatMap image,
    scan.skipped.flatMap image, scan.rest.flatMap image⟩

theorem rewrite_accept (image : Char → List Char) (token : Token) (seen rest : List Char) :
    (accept token seen rest).rewrite image =
      accept (token.mapLexeme (List.flatMap image)) (seen.flatMap image) (rest.flatMap image) := rfl

theorem rewrite_reject (image : Char → List Char) (code : ErrorCode)
    (seen skipped rest : List Char) :
    (reject code seen skipped rest).rewrite image =
      reject code (seen.flatMap image) (skipped.flatMap image) (rest.flatMap image) := rfl

theorem drop_rewritten (image : Char → List Char) {text front : List Char}
    (parts : front ++ text.drop front.length = text) :
    (text.flatMap image).drop (front.flatMap image).length =
      (text.drop front.length).flatMap image := by
  have whole := congrArg (List.flatMap image) parts
  rw [List.flatMap_append] at whole
  rw [← whole, List.drop_left]

theorem upToClose?_append_of_starless {run : List Char} (starless : ∀ c ∈ run, c ≠ '*')
    (text : List Char) : upToClose? (run ++ text) = (upToClose? text).map (run ++ ·) := by
  induction run with
  | nil => simp
  | cons c run ih =>
      have unclosed : ∀ more, c = '*' → run ++ text = '/' :: more → False :=
        fun _ star _ => starless c List.mem_cons_self star
      rw [List.cons_append, upToClose?.eq_3 c _ unclosed,
        ih fun d member => starless d (List.mem_cons_of_mem c member), Option.map_map]
      rfl

section Rewriting

variable {image : Char → List Char} (rewriting : Rewriting image)
include rewriting

theorem word_rewrite (text : List Char) :
    word (text.flatMap image) = (word text).rewrite image := by
  obtain ⟨run, left, same⟩ := rewriting.takeWhile_plain isPlain_of_identifierPart text
  simp only [word, rewrite_accept, run, left, Token.mapLexeme_ofWord same, same]

theorem lineComment_rewrite (text : List Char) :
    lineComment (text.flatMap image) = (lineComment text).rewrite image := by
  have stable : Stable image fun c => !isLineTerminator c := by
    intro c d member
    simp only [rewriting.stable_isLineTerminator c d member]
  obtain ⟨run, left⟩ := rewriting.takeWhile_flatMap stable text
  have slash : isPlain '/' = true := by decide
  simp only [lineComment, rewrite_accept, Token.mapLexeme_ofText, run, left,
    rewriting.cons_plain slash]

theorem structural_rewrite {c : Char} (plain : isPlain c = true) (text : List Char) :
    structural c (text.flatMap image) = (structural c text).rewrite image := by
  have same : [c].flatMap image = [c] := rewriting.cons_plain plain []
  unfold structural
  cases Vocabulary.structuralKind? c with
  | none => simp only [rewrite_reject, same, List.flatMap_nil]
  | some kind => simp only [rewrite_accept, Token.mapLexeme_ofText, same]

theorem upToClose?_rewrite (text : List Char) :
    upToClose? (text.flatMap image) = (upToClose? text).map (List.flatMap image) := by
  have star : isPlain '*' = true := by decide
  have slash : isPlain '/' = true := by decide
  fun_induction upToClose? text with
  | case1 text =>
      rw [rewriting.cons_plain star, rewriting.cons_plain slash, upToClose?, Option.map_some,
        rewriting.cons_plain star, rewriting.cons_plain slash]
      rfl
  | case2 => rfl
  | case3 c text unclosed ih =>
      have found : upToClose? ((c :: text).flatMap image) =
          (upToClose? (text.flatMap image)).map (image c ++ ·) := by
        rw [List.flatMap_cons]
        by_cases starred : c = '*'
        · have still : ∀ more, c = '*' → text.flatMap image = '/' :: more → False := by
            intro more _ begins
            obtain ⟨tail, present, _⟩ := rewriting.exists_of_cons_plain slash begins
            exact unclosed tail starred present
          have same : image c = [c] := rewriting.plain c (by rw [starred]; exact star)
          rw [same, List.singleton_append, upToClose?.eq_3 c _ still]
          rfl
        · apply upToClose?_append_of_starless
          rintro d member rfl
          exact starred (rewriting.eq_of_mem_plain member star)
      rw [found, ih, Option.map_map, Option.map_map]
      rfl

theorem blockComment_rewrite (text : List Char) :
    blockComment (text.flatMap image) = (blockComment text).rewrite image := by
  have star : isPlain '*' = true := by decide
  have slash : isPlain '/' = true := by decide
  unfold blockComment
  rw [upToClose?_rewrite rewriting]
  cases found : upToClose? text with
  | none =>
      simp only [Option.map_none, rewrite_reject, rewriting.cons_plain slash,
        rewriting.cons_plain star, List.flatMap_nil]
  | some inside =>
      have cut := drop_rewritten image (upToClose?_append text inside found)
      simp only [Option.map_some, rewrite_accept, Token.mapLexeme_ofText,
        rewriting.cons_plain slash, rewriting.cons_plain star, cut]

theorem longestPunctuator_rewrite {seen rest : List Char} {kind : TokenKind}
    (longest : LongestPunctuator seen rest kind) :
    LongestPunctuator seen (rest.flatMap image) kind := by
  refine ⟨longest.known, fun ahead more follows => ?_⟩
  cases further : Vocabulary.punctuatorKind? (String.ofList (seen ++ ahead)) with
  | none => rfl
  | some other =>
      obtain ⟨_, starts⟩ := Vocabulary.operatorStart_of_punctuatorKind? further
      have plain : ∀ c ∈ ahead, isPlain c = true := fun c member =>
        isPlain_of_operatorStart c (starts c (List.mem_append_right seen member))
      have absent := longest.longest ahead more (rewriting.prefix_of_plain plain follows)
      rw [absent] at further
      cases further

theorem punctuator_rewrite {c : Char} (start : isOperatorStart c = true) (text : List Char) :
    punctuator c (text.flatMap image) = (punctuator c text).rewrite image := by
  obtain ⟨seen, rest, kind, parts, longest, scanned⟩ := punctuator_accepts start text
  obtain ⟨_, starts⟩ := Vocabulary.operatorStart_of_punctuatorKind? longest.known
  have same : seen.flatMap image = seen :=
    rewriting.flatMap_plain fun d member => isPlain_of_operatorStart d (starts d member)
  have whole : seen ++ rest.flatMap image = c :: text.flatMap image := by
    have rewritten := congrArg (List.flatMap image) parts
    rwa [List.flatMap_append, same,
      rewriting.cons_plain (isPlain_of_operatorStart c start)] at rewritten
  rw [punctuator_eq_accept (longestPunctuator_rewrite rewriting longest) whole, scanned,
    rewrite_accept, Token.mapLexeme_ofText, same]

theorem sign_rewrite (text : List Char) : sign (text.flatMap image) = sign text := by
  cases text with
  | nil => rfl
  | cons c text =>
      by_cases signed : isSign c = true
      · rw [rewriting.cons_plain (isPlain_of_sign c signed)]
        rfl
      · obtain ⟨d, ds, becomes⟩ := List.exists_cons_of_ne_nil (rewriting.image_ne_nil c)
        have unsigned : ¬isSign d = true := by
          rw [(rewriting.stable_of_plain isPlain_of_sign).head becomes]
          exact signed
        rw [List.flatMap_cons, becomes]
        simp [sign, signed, unsigned]

/-- The sign of a text and plain characters behind it stay in front of the rewritten rest. -/
theorem signed_rewrite {text front rest : List Char} (parts : unsigned text = front ++ rest)
    (plain : ∀ c ∈ front, isPlain c = true) :
    text = sign text ++ (front ++ rest) ∧
      text.flatMap image = sign text ++ (front ++ rest.flatMap image) ∧
      sign (sign text ++ (front ++ rest.flatMap image)) = sign text ∧
      (sign text ++ front).flatMap image = sign text ++ front := by
  have whole := sign_append_unsigned text
  rw [parts] at whole
  have signs : (sign text).flatMap image = sign text := by
    apply rewriting.flatMap_plain
    intro c member
    exact isPlain_of_sign c (List.mem_filter.mp member).2
  have same : front.flatMap image = front := rewriting.flatMap_plain plain
  have rewritten : text.flatMap image = sign text ++ (front ++ rest.flatMap image) := by
    conv => lhs; rw [← whole]
    rw [List.flatMap_append, List.flatMap_append, signs, same]
  refine ⟨whole.symm, rewritten, ?_, ?_⟩
  · rw [← rewritten]
    exact sign_rewrite rewriting text
  · rw [List.flatMap_append, signs, same]

theorem number_rewrite (text : List Char) :
    number (text.flatMap image) = (number text).rewrite image := by
  have runs := rewriting.stable_of_plain isPlain_of_numericRun
  have narrow : ∀ c, isDigitOrSeparator c = true → isPlain c = true := fun c member =>
    isPlain_of_numericRun c (isNumericRun_of_digitOrSeparator c member)
  cases numeral text with
  | malformed run rest code parts inside stops faulty =>
      have plain : ∀ c ∈ run, isPlain c = true := fun c member =>
        isPlain_of_numericRun c (inside c member)
      obtain ⟨whole, rewritten, still, same⟩ := signed_rewrite rewriting parts plain
      have signed := congrArg sign whole
      have scanned := number_malformed signed.symm inside stops faulty
      rw [← whole] at scanned
      rw [rewritten, scanned, number_malformed still inside (rewriting.stops_flatMap runs stops) faulty,
        rewrite_reject, same, List.flatMap_nil]
  | whole digits rest parts inside stops sound =>
      have plain : ∀ c ∈ digits, isPlain c = true := fun c member => narrow c (inside c member)
      obtain ⟨whole, rewritten, still, same⟩ := signed_rewrite rewriting parts plain
      have signed := congrArg sign whole
      have scanned := number_whole signed.symm inside stops sound
      rw [← whole] at scanned
      rw [rewritten, scanned, number_whole still inside (rewriting.stops_flatMap runs stops) sound,
        rewrite_accept, numberToken, Token.mapLexeme_ofText, same]
  | pointed digits fraction rest parts inside within stops sound valid =>
      have plain : ∀ c ∈ digits ++ '.' :: fraction, isPlain c = true := by
        intro c member
        rcases List.mem_append.mp member with before | after
        · exact narrow c (inside c before)
        · rcases List.mem_cons.mp after with rfl | behind
          · decide
          · exact narrow c (within c behind)
      have joined : unsigned text = (digits ++ '.' :: fraction) ++ rest := by
        rw [parts, List.append_assoc]
        rfl
      obtain ⟨whole, rewritten, still, same⟩ := signed_rewrite rewriting joined plain
      simp only [List.append_assoc, List.cons_append] at whole rewritten still same
      have signed := congrArg sign whole
      have digitStops := rewriting.stops_flatMap (rewriting.stable_of_plain narrow) stops
      have scanned := number_pointed signed.symm inside within stops sound valid
      rw [← whole] at scanned
      rw [rewritten, scanned, number_pointed still inside within digitStops sound valid,
        rewrite_accept, numberToken, Token.mapLexeme_ofText, List.append_assoc, same]

end Rewriting
end Scan
end ScriptLexer
