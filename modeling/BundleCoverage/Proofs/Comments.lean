import BundleCoverage.Script.CodeLines

/-!
# Comments and code

What is left of a line without its comments depends on whether a comment is open before it
(`CodeLine.uncommented`).  A line carries code if a character is left that is neither blank nor
punctuation (`CodeLine.CarriesCode`).

The lines with code are found without looking for comments inside a line.  A line is tidy if, behind
the end of a comment that is open before it and behind a comment that starts there, it has brackets
alone, a line comment, or text with code that leaves no comment open (`CodeLine.IsTidy`).  The tidy
lines are those that are judged right, with the comment that they leave open
(`CodeLine.judge_eq_read_iff`).  So the lines of a text are told apart, however many of them come
before a line of code, exactly if all are tidy (`toldApart_codeLines`).
-/

namespace BundleCoverage

open Text

namespace CodeLine

/-! ## Lines without comments -/

/-- What is left of a line without its comments, and whether a comment is open after it. -/
def uncommented : (inComment : Bool) → List Char → List Char × Bool
  | inComment, [] => ([], inComment)
  | false, '/' :: '/' :: _ => ([], false)
  | false, '/' :: '*' :: rest => uncommented true rest
  | false, c :: rest => (c :: (uncommented false rest).1, (uncommented false rest).2)
  | true, '*' :: '/' :: rest => uncommented false rest
  | true, _ :: rest => uncommented true rest

/-- Whether a text has a character that is neither blank nor punctuation. -/
def hasCode (text : List Char) : Bool := text.any fun c => !isBlank c && !isPunctuation c

/-- What a line says about code if its comments are taken away. -/
def read (inComment : Bool) (line : List Char) : Judgement :=
  ⟨(uncommented inComment line).2, hasCode (uncommented inComment line).1⟩

/-- What is left of some lines without their comments. -/
def withoutComments : (inComment : Bool) → List (List Char) → List (List Char)
  | _, [] => []
  | inComment, line :: lines =>
    (uncommented inComment line).1 :: withoutComments (uncommented inComment line).2 lines

/-- The line with a number, from one, has a character outside comments that is neither blank nor
punctuation. -/
def CarriesCode (lines : List (List Char)) (n : Nat) : Prop :=
  ∃ i left, n = 1 + i ∧ (withoutComments false lines)[i]? = some left ∧
    ∃ c ∈ left, isBlank c = false ∧ isPunctuation c = false

theorem read_nil (inComment : Bool) : read inComment [] = ⟨inComment, false⟩ := by
  cases inComment <;> rfl

/-- Outside comments, a character that opens none is left. -/
theorem read_false_cons {c : Char} {rest : List Char}
    (h : c = '/' → rest.head? ≠ some '/' ∧ rest.head? ≠ some '*') :
    read false (c :: rest)
      = ⟨(read false rest).inComment,
          (!isBlank c && !isPunctuation c) || (read false rest).code⟩ := by
  have hleft : uncommented false (c :: rest)
      = (c :: (uncommented false rest).1, (uncommented false rest).2) := by
    rw [uncommented]
    · rintro _ rfl rfl
      exact (h rfl).1 rfl
    · rintro _ rfl rfl
      exact (h rfl).2 rfl
  simp only [read, hleft, hasCode, List.any_cons]

theorem read_true_cons {c : Char} {rest : List Char} (h : c = '*' → rest.head? ≠ some '/') :
    read true (c :: rest) = read true rest := by
  have hleft : uncommented true (c :: rest) = uncommented true rest := by
    rw [uncommented]
    rintro _ rfl rfl
    exact h rfl rfl
  simp only [read, hleft]

theorem read_lineComment (rest : List Char) : read false ('/' :: '/' :: rest) = ⟨false, false⟩ := rfl

theorem read_opened (rest : List Char) : read false ('/' :: '*' :: rest) = read true rest := rfl

/-! ## Blanks around a line -/

theorem ne_of_isBlank {c d : Char} (hc : isBlank c = true) (hd : isBlank d = false) : c ≠ d := by
  rintro rfl
  rw [hc] at hd
  cases hd

theorem read_cons_of_isBlank {c : Char} (hc : isBlank c = true) (inComment : Bool)
    (line : List Char) : read inComment (c :: line) = read inComment line := by
  cases inComment with
  | false =>
      rw [read_false_cons fun h => absurd h (ne_of_isBlank hc rfl), hc]
      rfl
  | true => exact read_true_cons fun h => absurd h (ne_of_isBlank hc rfl)

theorem read_dropWhile (inComment : Bool) (line : List Char) :
    read inComment (line.dropWhile isBlank) = read inComment line := by
  induction line with
  | nil => rfl
  | cons c line ih =>
      by_cases hc : isBlank c = true
      · rw [List.dropWhile_cons_of_pos hc, ih, read_cons_of_isBlank hc]
      · rw [List.dropWhile_cons_of_neg hc]

theorem read_of_blank {blanks : List Char} (h : ∀ c ∈ blanks, isBlank c = true)
    (inComment : Bool) : read inComment blanks = ⟨inComment, false⟩ := by
  induction blanks with
  | nil => exact read_nil inComment
  | cons c blanks ih =>
      obtain ⟨hc, hblanks⟩ := List.forall_mem_cons.1 h
      rw [read_cons_of_isBlank hc, ih hblanks]

theorem head?_append_ne {blanks rest : List Char} (h : ∀ c ∈ blanks, isBlank c = true) {d : Char}
    (hd : isBlank d = false) (hrest : rest.head? ≠ some d) : (rest ++ blanks).head? ≠ some d := by
  cases rest with
  | nil =>
      intro hhead
      exact ne_of_isBlank (h d (List.mem_of_mem_head? hhead)) hd rfl
  | cons c rest => exact hrest

theorem read_append_of_blank {blanks : List Char} (h : ∀ c ∈ blanks, isBlank c = true)
    (inComment : Bool) (line : List Char) :
    read inComment (line ++ blanks) = read inComment line := by
  have hhead {d : Char} {rest : List Char} (hne : ∀ tail, rest = d :: tail → False) :
      rest.head? ≠ some d := by
    intro hsome
    obtain ⟨tail, rfl⟩ := List.head?_eq_some_iff.1 hsome
    exact hne tail rfl
  fun_induction uncommented inComment line with
  | case1 inComment => rw [List.nil_append, read_of_blank h, read_nil]
  | case2 rest => rfl
  | case3 rest ih => exact ih
  | case4 c rest hline hblock ih =>
      have hopens (hc : c = '/') : rest.head? ≠ some '/' ∧ rest.head? ≠ some '*' :=
        ⟨hhead fun tail => hline tail hc, hhead fun tail => hblock tail hc⟩
      rw [List.cons_append, read_false_cons hopens, ← ih]
      exact read_false_cons fun hc =>
        ⟨head?_append_ne h rfl (hopens hc).1, head?_append_ne h rfl (hopens hc).2⟩
  | case5 rest ih => exact ih
  | case6 c rest hclose ih =>
      have hends (hc : c = '*') : rest.head? ≠ some '/' := hhead fun tail => hclose tail hc
      rw [List.cons_append, read_true_cons hends, ← ih]
      exact read_true_cons fun hc => head?_append_ne h rfl (hends hc)

theorem read_trim (inComment : Bool) (line : List Char) :
    read inComment (trim line) = read inComment line := by
  have hend (text : List Char) : read inComment (trimEnd isBlank text) = read inComment text := by
    obtain ⟨behind, htext, hbehind⟩ := exists_trimEnd_append isBlank text
    rw [← read_append_of_blank hbehind, htext]
  rw [trim, hend, trimStart, read_dropWhile]

/-! ## The end of a comment -/

theorem stripPrefix?_close (c : Char) (line : List Char) :
    stripPrefix? "*/".toList (c :: line)
      = if c = '*' ∧ line.head? = some '/' then some line.tail else none := by
  by_cases hc : c = '*'
  · subst hc
    cases line with
    | nil => rfl
    | cons d line =>
        by_cases hd : d = '/'
        · subst hd
          rfl
        · rw [if_neg (by simpa using hd)]
          exact if_neg (Ne.symm hd)
  · rw [if_neg (hc ·.1)]
    exact if_neg (Ne.symm hc)

/-- A comment that is open ends with the first end of a comment. -/
theorem read_true (line : List Char) :
    read true line = (cut? "*/".toList line).elim ⟨true, false⟩ fun parts => read false parts.2 := by
  induction line with
  | nil => rfl
  | cons c line ih =>
      rw [cut?, stripPrefix?_close]
      by_cases h : c = '*' ∧ line.head? = some '/'
      · obtain ⟨rfl, hhead⟩ := h
        obtain ⟨rest, rfl⟩ := List.head?_eq_some_iff.1 hhead
        rfl
      · rw [if_neg h, read_true_cons fun hc hhead => h ⟨hc, hhead⟩, ih]
        cases cut? "*/".toList line <;> rfl

/-! ## Tidy lines -/

/-- Text outside comments is brackets only, a line comment, or code that leaves no comment open. -/
def IsPlain (text : List Char) : Prop :=
  text.all isPunctuation = true ∨ startsWith text "//".toList = true
    ∨ (uncommented false text).2 = false ∧ hasCode (uncommented false text).1 = true

/-- Text outside comments is plain, or plain behind the comment that it begins with.  A comment that
begins with a slash ends on the line, and there is code behind it unless a line comment starts at
that slash or blanks behind it. -/
def IsTidyOutside : List Char → Prop
  | '/' :: '*' :: '/' :: rest =>
    (uncommented true rest).2 = false
      ∧ hasCode (uncommented true rest).1 = !startsWith (trim rest) "//".toList
  | '/' :: '*' :: body => ∀ parts ∈ cut? "*/".toList body, IsPlain (trim parts.2)
  | text => IsPlain text

/-- A line is tidy, from the end of the comment that is open before it. -/
def IsTidy (inComment : Bool) (line : List Char) : Prop :=
  if inComment then ∀ parts ∈ cut? "*/".toList (trim line), IsTidyOutside (trim parts.2)
  else IsTidyOutside (trim line)

theorem read_of_punctuation {text : List Char} (h : text.all isPunctuation = true) :
    read false text = ⟨false, false⟩ := by
  induction text with
  | nil => rfl
  | cons c text ih =>
      rw [List.all_cons, Bool.and_eq_true] at h
      have hslash : c ≠ '/' := by
        rintro rfl
        exact absurd h.1 (by decide)
      rw [read_false_cons (absurd · hslash), ih h.2, h.1]
      simp

theorem read_of_lineComment {text : List Char} (h : startsWith text "//".toList = true) :
    read false text = ⟨false, false⟩ := by
  obtain ⟨rest, hrest⟩ := Option.isSome_iff_exists.1 h
  rw [stripPrefix?_eq_some_iff.1 hrest]
  exact read_lineComment rest

/-- Text outside comments is judged as it reads without them exactly if it is plain. -/
theorem isCode_eq_read_iff (text : List Char) :
    (⟨false, isCode text⟩ : Judgement) = read false text ↔ IsPlain text := by
  by_cases hbrackets : text.all isPunctuation = true
  · rw [read_of_punctuation hbrackets]
    refine iff_of_true ?_ (.inl hbrackets)
    rw [isCode, hbrackets, Bool.not_true, Bool.and_false]
  by_cases hcomment : startsWith text "//".toList = true
  · rw [read_of_lineComment hcomment]
    refine iff_of_true ?_ (.inr (.inl hcomment))
    rw [isCode, hcomment, Bool.not_true, Bool.and_false, Bool.false_and]
  have hcode : isCode text = true := by
    have hne : text ≠ [] := by
      rintro rfl
      exact hbrackets rfl
    rw [isCode, Bool.eq_false_iff.2 hcomment, Bool.eq_false_iff.2 hbrackets,
      decide_eq_true hne]
    rfl
  simp only [IsPlain, hbrackets, hcomment, hcode, read, Judgement.mk.injEq, false_or, eq_comm,
    Bool.false_eq_true]

theorem mem_trim {c : Char} {text : List Char} (hc : isBlank c = false) (h : c ∈ text) :
    c ∈ trim text := by
  have hdrop {text : List Char} (h : c ∈ text) : c ∈ text.dropWhile isBlank := by
    rw [← List.takeWhile_append_dropWhile (p := isBlank) (l := text), List.mem_append] at h
    refine h.resolve_left fun hblank => ?_
    rw [List.all_eq_true.1 List.all_takeWhile c hblank] at hc
    cases hc
  exact List.mem_reverse.2 (hdrop (List.mem_reverse.2 (hdrop h)))

/-- Behind a comment that is open there is a star, which is not punctuation. -/
theorem isCode_trim_of_closed {rest : List Char} (h : (read true rest).inComment = false) :
    isCode (trim rest) = !startsWith (trim rest) "//".toList := by
  rw [read_true] at h
  cases hcut : cut? "*/".toList rest with
  | none =>
      rw [hcut] at h
      cases h
  | some parts =>
      have hstar : '*' ∈ trim rest := by
        refine mem_trim rfl ?_
        rw [eq_append_of_cut? hcut]
        simp
      have hne : trim rest ≠ [] := List.ne_nil_of_mem hstar
      have hbrackets : (trim rest).all isPunctuation = false := by
        rw [List.all_eq_false]
        exact ⟨'*', hstar, by decide⟩
      simp [isCode, hne, hbrackets]

/-- The end of a comment is searched from its first character. -/
theorem judgeOutside_comment {body : List Char} (h : body.head? ≠ some '/') :
    judgeOutside ('/' :: '*' :: body)
      = (cut? "*/".toList body).elim ⟨true, false⟩ fun parts => ⟨false, isCode (trim parts.2)⟩ := by
  have hslash : '/' ≠ '*' := by decide
  have hcut : cut? "*/".toList ('/' :: '*' :: body)
      = (cut? "*/".toList body).map fun parts => ('/' :: '*' :: parts.1, parts.2) := by
    rw [cut?, stripPrefix?_close, if_neg (hslash ·.1), cut?, stripPrefix?_close,
      if_neg (h ·.2), Option.map_map]
    rfl
  have hstart : startsWith ('/' :: '*' :: body) "/*".toList = true := rfl
  rw [judgeOutside, if_pos hstart, hcut]
  cases cut? "*/".toList body <;> rfl

theorem judgeOutside_eq_read_iff (text : List Char) :
    judgeOutside text = read false text ↔ IsTidyOutside text := by
  unfold IsTidyOutside
  split
  next rest =>
    have hjudge : judgeOutside ('/' :: '*' :: '/' :: rest) = ⟨false, isCode (trim rest)⟩ := rfl
    have hslash : '/' ≠ '*' := by decide
    rw [hjudge, read_opened, read_true_cons (absurd · hslash)]
    constructor
    · intro h
      have hclosed : (read true rest).inComment = false := by rw [← h]
      rw [isCode_trim_of_closed hclosed] at h
      exact ⟨hclosed, (congrArg Judgement.code h).symm⟩
    · rintro ⟨hclosed, hcode⟩
      rw [isCode_trim_of_closed hclosed, ← hcode, ← hclosed]
      rfl
  next body hslash =>
    have hhead : body.head? ≠ some '/' := by
      intro hhead
      obtain ⟨rest, rfl⟩ := List.head?_eq_some_iff.1 hhead
      exact hslash rest rfl
    rw [judgeOutside_comment hhead, read_opened, read_true]
    cases cut? "*/".toList body with
    | none => simp
    | some parts => simp [← isCode_eq_read_iff, read_trim]
  next hslash hcomment =>
    have hstart : ¬startsWith text "/*".toList = true := by
      intro h
      obtain ⟨body, hbody⟩ := Option.isSome_iff_exists.1 h
      exact hcomment body (stripPrefix?_eq_some_iff.1 hbody)
    rw [judgeOutside, if_neg hstart, isCode_eq_read_iff]

/-- A line is judged as it reads without comments exactly if it is tidy. -/
theorem judge_eq_read_iff (inComment : Bool) (line : List Char) :
    judge inComment line = read inComment line ↔ IsTidy inComment line := by
  rw [← read_trim, judge, IsTidy]
  cases inComment with
  | false => exact judgeOutside_eq_read_iff _
  | true =>
      rw [read_true]
      cases cut? "*/".toList (trim line) with
      | none => simp
      | some parts => simp [← judgeOutside_eq_read_iff, read_trim]

/-! ## Tidy texts -/

/-- Which lines carry code, by a way to judge a line. -/
def codes (judge : Bool → List Char → Judgement) : (inComment : Bool) → List (List Char) → List Bool
  | _, [] => []
  | inComment, line :: lines =>
    (judge inComment line).code :: codes judge (judge inComment line).inComment lines

/-- The lines with code are exactly those that carry code. -/
def ToldApart (lines : List (List Char)) : Prop :=
  ∀ n, (∃ l ∈ among 1 false lines, l.line = n) ↔ CarriesCode lines n

/-- Every line is tidy, given whether a comment is open before it. -/
def AllTidy : (inComment : Bool) → List (List Char) → Prop
  | _, [] => True
  | inComment, line :: lines =>
    IsTidy inComment line ∧ AllTidy (uncommented inComment line).2 lines

instance (inComment : Bool) (line : List Char) : Decidable (IsTidy inComment line) :=
  decidable_of_iff _ (judge_eq_read_iff inComment line)

instance decidableAllTidy (inComment : Bool) :
    (lines : List (List Char)) → Decidable (AllTidy inComment lines)
  | [] => .isTrue trivial
  | line :: lines =>
    have := decidableAllTidy (uncommented inComment line).2 lines
    inferInstanceAs (Decidable (IsTidy inComment line ∧ _))

theorem length_codes (judge : Bool → List Char → Judgement) (inComment : Bool)
    (lines : List (List Char)) : (codes judge inComment lines).length = lines.length := by
  induction lines generalizing inComment with
  | nil => rfl
  | cons line lines ih => rw [codes, List.length_cons, ih, List.length_cons]

theorem exists_mem_among_iff (number : Nat) (inComment : Bool) (lines : List (List Char))
    (n : Nat) :
    (∃ l ∈ among number inComment lines, l.line = n)
      ↔ ∃ i, n = number + i ∧ (codes judge inComment lines)[i]? = some true := by
  induction lines generalizing number inComment with
  | nil => simp [among, codes]
  | cons line lines ih =>
      have hrest := ih (number + 1) (judge inComment line).inComment
      have hsplit : (∃ l ∈ among number inComment (line :: lines), l.line = n)
          ↔ ((judge inComment line).code = true ∧ n = number)
            ∨ ∃ l ∈ among (number + 1) (judge inComment line).inComment lines, l.line = n := by
        rw [among]
        cases (judge inComment line).code with
        | false => simp
        | true => simp [ofLine, eq_comm]
      rw [hsplit, hrest, codes]
      constructor
      · rintro (⟨hcode, rfl⟩ | ⟨i, rfl, hi⟩)
        · exact ⟨0, rfl, congrArg some hcode⟩
        · exact ⟨i + 1, by omega, hi⟩
      · rintro ⟨_ | i, rfl, hi⟩
        · exact .inl ⟨Option.some.inj hi, rfl⟩
        · exact .inr ⟨i, by omega, hi⟩

theorem codes_read (inComment : Bool) (lines : List (List Char)) :
    codes read inComment lines = (withoutComments inComment lines).map hasCode := by
  induction lines generalizing inComment with
  | nil => rfl
  | cons line lines ih => exact congrArg _ (ih _)

theorem carriesCode_iff (lines : List (List Char)) (n : Nat) :
    CarriesCode lines n ↔ ∃ i, n = 1 + i ∧ (codes read false lines)[i]? = some true := by
  have hcode (left : List Char) :
      hasCode left = true ↔ ∃ c ∈ left, isBlank c = false ∧ isPunctuation c = false := by
    simp [hasCode]
  simp only [CarriesCode, codes_read, List.getElem?_map, Option.map_eq_some_iff, hcode]
  simp only [← exists_and_left]

theorem toldApart_iff (lines : List (List Char)) :
    ToldApart lines ↔ codes judge false lines = codes read false lines := by
  simp only [ToldApart, exists_mem_among_iff, carriesCode_iff]
  constructor
  · intro h
    refine List.ext_getElem (by rw [length_codes, length_codes]) fun i hi hi' => ?_
    have hnumber := h (1 + i)
    simp only [Nat.add_left_cancel_iff, exists_eq_left', List.getElem?_eq_getElem hi,
      List.getElem?_eq_getElem hi', Option.some.injEq] at hnumber
    exact Bool.eq_iff_iff.2 hnumber
  · intro h n
    rw [h]

theorem codes_eq_of_allTidy {inComment : Bool} {lines : List (List Char)}
    (h : AllTidy inComment lines) : codes judge inComment lines = codes read inComment lines := by
  induction lines generalizing inComment with
  | nil => rfl
  | cons line lines ih =>
      rw [codes, codes, (judge_eq_read_iff inComment line).2 h.1]
      exact congrArg _ (ih h.2)

/-- Lines are told apart however many of them come before a line of code, exactly if all are tidy. -/
theorem codes_take_append_eq_iff (inComment : Bool) (lines : List (List Char)) :
    (∀ k, codes judge inComment (lines.take k ++ ["x".toList])
        = codes read inComment (lines.take k ++ ["x".toList]))
      ↔ AllTidy inComment lines := by
  -- the line of code shows whether a comment is open before it
  have hjudge (inComment : Bool) : codes judge inComment ["x".toList] = [!inComment] := by
    cases inComment <;> decide
  have hread (inComment : Bool) : codes read inComment ["x".toList] = [!inComment] := by
    cases inComment <;> decide
  induction lines generalizing inComment with
  | nil =>
      refine iff_of_true (fun k => ?_) trivial
      rw [List.take_nil, List.nil_append, hjudge, hread]
  | cons line lines ih =>
      rw [AllTidy, ← judge_eq_read_iff]
      constructor
      · intro h
        have hline : judge inComment line = read inComment line := by
          have hone : (judge inComment line).code
                :: codes judge (judge inComment line).inComment ["x".toList]
              = (read inComment line).code
                :: codes read (read inComment line).inComment ["x".toList] := h 1
          rw [hjudge, hread] at hone
          obtain ⟨hcode, hopen⟩ := List.cons.inj hone
          have hflag := Bool.not_inj (List.cons.inj hopen).1
          generalize judge inComment line = j, read inComment line = r at hcode hflag ⊢
          cases j
          cases r
          exact (Judgement.mk.injEq ..).mpr ⟨hflag, hcode⟩
        refine ⟨hline, (ih _).1 fun k => ?_⟩
        have hmore := h (k + 1)
        rw [List.take_succ_cons, List.cons_append, codes, codes, hline] at hmore
        exact (List.cons.inj hmore).2
      · rintro ⟨hline, hlines⟩ k
        cases k with
        | zero => rw [List.take_zero, List.nil_append, hjudge, hread]
        | succ k =>
            rw [List.take_succ_cons, List.cons_append, codes, codes, hline]
            exact congrArg _ ((ih _).2 hlines k)

end CodeLine

/-- Lines are told apart however one breaks off before a line of code, exactly if all are tidy.  The
lines with code of a tidy text are those that carry code. -/
theorem toldApart_codeLines (text : String) :
    ((∀ k, CodeLine.ToldApart ((lines text.toList).take k ++ ["x".toList]))
        ↔ CodeLine.AllTidy false (lines text.toList))
      ∧ (CodeLine.AllTidy false (lines text.toList) →
          ∀ n, (∃ l ∈ codeLines text, l.line = n) ↔ CodeLine.CarriesCode (lines text.toList) n) := by
  simp only [CodeLine.toldApart_iff]
  exact ⟨CodeLine.codes_take_append_eq_iff false _, fun h =>
    (CodeLine.toldApart_iff _).2 (CodeLine.codes_eq_of_allTidy h)⟩

example : CodeLine.AllTidy false
    (lines "f();\n\n/* a\n b */ g(); // c\n\x7d);\n/* d */ h();".toList) := by decide

/-- Brackets with a blank between them, a second comment, and a comment that begins with a slash are
taken for code. -/
theorem not_toldApart_untidy :
    ¬∀ n, (∃ l ∈ codeLines "f();\n\x7d, \x7b\n/* a */ /* b */\n/*/ c */", l.line = n)
        ↔ CodeLine.CarriesCode (lines "f();\n\x7d, \x7b\n/* a */ /* b */\n/*/ c */".toList) n := by
  refine mt (CodeLine.toldApart_iff _).1 ?_
  decide

end BundleCoverage
