import Usai.Postgres.Lexer
import Usai.Postgres.Transactions

/-! The guard of `call_inner` against statements that change a connection's state,
compared with what the server takes a text to be. -/

namespace Usai.Postgres

open List Option
open Text (toAsciiLowercase unicodeSpace)

def refusedWords : List String :=
  ["begin", "start", "commit", "end", "rollback", "abort", "savepoint", "release", "set", "reset",
    "discard", "listen", "unlisten", "deallocate"]

theorem connectionStateStatement_isSome (sql : String) :
    (connectionStateStatement sql).isSome = true ↔ firstWord sql ∈ refusedWords := by
  unfold connectionStateStatement
  generalize firstWord sql = word
  constructor
  · intro refused
    split at refused
    all_goals first | decide | cases refused
  · intro member
    simp only [refusedWords, mem_cons, not_mem_nil, or_false] at member
    rcases member with rfl | rfl | rfl | rfl | rfl | rfl | rfl | rfl | rfl | rfl | rfl | rfl | rfl | rfl <;>
      rfl

/-- Some statement of the text begins with a refused word, as the server reads it. -/
def Offends (sql : String) : Prop :=
  ∃ parts, statements sql = some parts ∧ ∃ statement ∈ parts, ∃ word ∈ refusedWords,
    statement.head? = some (.word word)

/-- What `first_word` skips: whitespace, comments to the end of a line, and comments
up to the first `*/`. -/
inductive Leads : List Char → Prop
  | nil : Leads []
  | space (blank : unicodeSpace c = true) (leads : Leads rest) :
      Leads (c :: rest)
  | line (single : '\n' ∉ body) (leads : Leads rest) :
      Leads ('-' :: '-' :: body ++ '\n' :: rest)
  | block (flat : ¬ ['*', '/'] <:+: body) (leads : Leads rest) :
      Leads ('/' :: '*' :: body ++ '*' :: '/' :: rest)

def Bounded (tail : List Char) : Prop := ∀ c ∈ tail.head?, unicodeSpace c = true ∨ c = ';'

def Opens (sql : String) : Prop :=
  ∃ lead word tail, sql.toList = lead ++ (word ++ tail) ∧ Leads lead ∧
    toAsciiLowercase (String.ofList word) ∈ refusedWords ∧ Bounded tail

theorem skipLine_append (single : '\n' ∉ body) (rest : List Char) :
    skipLead .lineComment (body ++ '\n' :: rest) = skipLead .between rest := by
  induction body with
  | nil => simp only [nil_append, skipLead]
  | cons c _ ih =>
    rw [mem_cons, not_or] at single
    have other : c ≠ '\n' := fun same => single.1 same.symm
    rw [cons_append, skipLead.eq_5 _ _ other]
    exact ih single.2

theorem skipBlock_append (flat : ¬ ['*', '/'] <:+: body) (rest : List Char) :
    skipLead .blockComment (body ++ '*' :: '/' :: rest) = skipLead .between rest := by
  induction body with
  | nil => simp only [nil_append, skipLead]
  | cons c body ih =>
    have inner : ¬ ['*', '/'] <:+: body :=
      fun inside => flat (inside.trans (suffix_cons c body).isInfix)
    rw [cons_append, skipLead.eq_7]
    · exact ih inner
    · intro after star slash
      cases body with
      | nil => cases slash
      | cons next body =>
        have same : next = '/' := (cons.inj slash).1
        apply flat
        rw [star, same]
        exact ⟨[], body, rfl⟩

theorem skipLead_space (blank : unicodeSpace c = true) (rest : List Char) :
    skipLead .between (c :: rest) = skipLead .between rest := by
  rw [skipLead.eq_3, if_pos blank]
  · rintro after rfl
    exact absurd blank (by decide)
  · rintro _ rfl
    exact absurd blank (by decide)

theorem skipLead_leads (leads : Leads lead) (rest : List Char) :
    skipLead .between (lead ++ rest) = skipLead .between rest := by
  induction leads with
  | nil => rfl
  | space blank _ ih => rw [cons_append, skipLead_space blank, ih]
  | line single _ ih =>
    simp only [cons_append, append_assoc, skipLead.eq_1]
    rw [skipLine_append single, ih]
  | block flat _ ih =>
    simp only [cons_append, append_assoc, skipLead.eq_2]
    rw [skipBlock_append flat, ih]

def Lead.Skips : Lead → List Char → Prop
  | .between, lead => Leads lead
  | .lineComment, lead => ∃ body rest, '\n' ∉ body ∧ Leads rest ∧ lead = body ++ '\n' :: rest
  | .blockComment, lead =>
    ∃ body rest, ¬ ['*', '/'] <:+: body ∧ Leads rest ∧ lead = body ++ '*' :: '/' :: rest

theorem skipLead_skips (mode : Lead) (text : List Char) (left : skipLead mode text ≠ []) :
    ∃ lead, text = lead ++ skipLead mode text ∧ mode.Skips lead := by
  induction mode, text using skipLead.induct with
  | case1 _ ih =>
    obtain ⟨_, split, body, lead, single, leads, rfl⟩ := ih left
    exact ⟨_, congrArg (fun tail => '-' :: '-' :: tail) split, .line single leads⟩
  | case2 _ ih =>
    obtain ⟨_, split, body, lead, flat, leads, rfl⟩ := ih left
    exact ⟨_, congrArg (fun tail => '/' :: '*' :: tail) split, .block flat leads⟩
  | case3 c _ _ _ blank ih =>
    rw [skipLead_space blank] at left ⊢
    obtain ⟨lead, split, leads⟩ := ih left
    refine ⟨c :: lead, ?_, .space blank leads⟩
    rw [cons_append, ← split]
  | case4 c rest dash slash ink =>
    rw [skipLead.eq_3 c rest dash slash, if_neg ink]
    exact ⟨[], rfl, .nil⟩
  | case5 _ ih =>
    rw [skipLead.eq_4] at left ⊢
    obtain ⟨lead, split, leads⟩ := ih left
    refine ⟨'\n' :: lead, ?_, [], lead, not_mem_nil, leads, rfl⟩
    rw [cons_append, ← split]
  | case6 c rest other ih =>
    rw [skipLead.eq_5 c rest other] at left ⊢
    obtain ⟨_, split, body, lead, single, leads, rfl⟩ := ih left
    refine ⟨c :: body ++ '\n' :: lead, ?_, c :: body, lead, ?_, leads, rfl⟩
    · rw [cons_append, cons_append, ← split]
    · rw [mem_cons, not_or]
      exact ⟨fun same => other same.symm, single⟩
  | case7 _ ih =>
    rw [skipLead.eq_6] at left ⊢
    obtain ⟨lead, split, leads⟩ := ih left
    refine ⟨'*' :: '/' :: lead, ?_, [], lead, ?_, leads, rfl⟩
    · rw [cons_append, cons_append, ← split]
    · intro inside
      cases infix_nil.mp inside
  | case8 c rest other ih =>
    rw [skipLead.eq_7 c rest other] at left ⊢
    obtain ⟨_, split, body, lead, flat, leads, rfl⟩ := ih left
    refine ⟨c :: body ++ '*' :: '/' :: lead, ?_, c :: body, lead, ?_, leads, rfl⟩
    · rw [cons_append, cons_append, ← split]
    · intro inside
      rcases infix_cons_iff.mp inside with first | inside
      · obtain ⟨_, same⟩ := first
        cases same
        exact other _ rfl split
      · exact flat inside
  | case9 mode => exact absurd (skipLead.eq_8 mode) left

theorem alpha_ink (alpha : c.isAlpha = true) :
    unicodeSpace c = false ∧ c ≠ ';' ∧ c ≠ '-' ∧ c ≠ '/' := by
  have range : (65 ≤ c.toNat ∧ c.toNat ≤ 90) ∨ (97 ≤ c.toNat ∧ c.toNat ≤ 122) := by
    change (decide (c.val ≥ 65 ∧ c.val ≤ 90) || decide (c.val ≥ 97) && decide (c.val ≤ 122)) = true
      at alpha
    simpa [UInt32.le_iff_toNat_le] using alpha
  refine ⟨?_, ?_, ?_, ?_⟩
  · simp only [unicodeSpace, mem_cons, not_mem_nil, or_false, decide_eq_false_iff_not]
    omega
  · rintro rfl
    revert range
    decide
  · rintro rfl
    revert range
    decide
  · rintro rfl
    revert range
    decide

theorem alpha_of_toLower {c : Char} (lower : c.toLower.isLower = true) : c.isAlpha = true := by
  unfold Char.toLower at lower
  split at lower
  · rename_i upper
    exact Bool.or_eq_true_iff.mpr (.inl (decide_eq_true upper))
  · exact Bool.or_eq_true_iff.mpr (.inr lower)

theorem alpha_of_refused (refused : toAsciiLowercase (String.ofList word) ∈ refusedWords) :
    word ≠ [] ∧ ∀ c ∈ word, c.isAlpha = true := by
  have spelled : ∀ text ∈ refusedWords, text.toList ≠ [] ∧ text.toList.all Char.isLower = true := by
    decide
  obtain ⟨nonempty, lower⟩ := spelled _ refused
  simp only [toAsciiLowercase, String.toList_ofList, List.all_map, List.all_eq_true] at nonempty lower
  refine ⟨fun empty => nonempty (by rw [empty]; rfl), fun c member => ?_⟩
  exact alpha_of_toLower (lower c member)

theorem takeWhile_word {word tail : List Char} (alpha : ∀ c ∈ word, c.isAlpha = true)
    (bounded : Bounded tail) :
    (word ++ tail).takeWhile (fun c => !(unicodeSpace c || c == ';')) = word := by
  induction word with
  | nil =>
    cases tail with
    | nil => rfl
    | cons c _ =>
      have stops : (unicodeSpace c || c == ';') = true := by
        rcases bounded c rfl with blank | rfl
        · simp [blank]
        · simp
      rw [nil_append, takeWhile_cons_of_neg (by rw [stops]; decide)]
  | cons c _ ih =>
    obtain ⟨ink, inside, _⟩ := alpha_ink (alpha c mem_cons_self)
    have goes : (unicodeSpace c || c == ';') = false := by simp [ink, inside]
    simp only [cons_append, takeWhile_cons, goes, Bool.not_false, if_true]
    rw [ih fun d member => alpha d (mem_cons_of_mem c member)]

theorem skipLead_word (nonempty : word ≠ [])
    (alpha : ∀ c ∈ word, c.isAlpha = true) (tail : List Char) :
    skipLead .between (word ++ tail) = word ++ tail := by
  cases word with
  | nil => exact absurd rfl nonempty
  | cons c _ =>
    obtain ⟨ink, _, dash, slash⟩ := alpha_ink (alpha c mem_cons_self)
    rw [cons_append, skipLead.eq_3, if_neg (by simp [ink])]
    · exact fun after same => absurd same dash
    · exact fun after same => absurd same slash

theorem firstWord_refused_iff (sql : String) : firstWord sql ∈ refusedWords ↔ Opens sql := by
  constructor
  · intro refused
    unfold firstWord at refused
    have left : skipLead .between sql.toList ≠ [] := by
      intro empty
      rw [empty] at refused
      exact absurd rfl (alpha_of_refused refused).1
    obtain ⟨lead, split, leads⟩ := skipLead_skips .between sql.toList left
    refine ⟨lead, _, (skipLead .between sql.toList).dropWhile fun c => !(unicodeSpace c || c == ';'),
      ?_, leads, refused, ?_⟩
    · rw [takeWhile_append_dropWhile, ← split]
    · intro c first
      have stops := head?_dropWhile_not (fun c => !(unicodeSpace c || c == ';'))
        (skipLead .between sql.toList)
      rw [mem_def.mp first] at stops
      rcases Bool.eq_false_or_eq_true (unicodeSpace c) with blank | ink
      · exact .inl blank
      · exact .inr (by simpa [ink] using stops)
  · rintro ⟨_, _, _, split, leads, refused, bounded⟩
    obtain ⟨nonempty, alpha⟩ := alpha_of_refused refused
    rw [firstWord, split, skipLead_leads leads, skipLead_word nonempty alpha,
      takeWhile_word alpha bounded]
    exact refused

def Refused (sql : String) : Prop :=
  ∀ method ∈ ["query", "one", "execute"], ∀ (params : List String) (unsynced : Bool), ∃ word,
    (GuestOperation.resource method ⟨none, .ok ⟨sql, params, unsynced⟩⟩).route =
      .refused (transactionControl word)

theorem route_unleased (member : method ∈ ["query", "one", "execute"])
    (sql : String) (params : List String) (unsynced : Bool) :
    (GuestOperation.resource method ⟨none, .ok ⟨sql, params, unsynced⟩⟩).route =
      match connectionStateStatement sql with
      | some word => .refused (transactionControl word)
      | none => .pooled (.ofName method) ⟨sql, params, false⟩ := by
  simp only [mem_cons, not_mem_nil, or_false] at member
  rcases member with rfl | rfl | rfl <;>
    simp only [GuestOperation.route, callRoute, Except.map, Bool.false_eq_true, if_false] <;>
    cases connectionStateStatement sql <;> rfl

theorem refused_iff_opens (sql : String) : Refused sql ↔ Opens sql := by
  rw [← firstWord_refused_iff, ← connectionStateStatement_isSome]
  constructor
  · intro refused
    have member : "query" ∈ ["query", "one", "execute"] := mem_cons_self
    obtain ⟨word, route⟩ := refused "query" member [] false
    have route := (route_unleased member sql [] false).symm.trans route
    cases found : connectionStateStatement sql with
    | some => rfl
    | none => rw [found] at route; cases route
  · intro found method member params unsynced
    obtain ⟨word, found⟩ := isSome_iff_exists.mp found
    refine ⟨word, ?_⟩
    rw [route_unleased member, found]

/-- What the server skips in front of a statement as `first_word` does. -/
inductive Blanks : List Char → Prop
  | nil : Blanks []
  | space (blank : Lexer.space c = true) (blanks : Blanks rest) : Blanks (c :: rest)
  | line (single : ∀ c ∈ body, c ≠ '\n' ∧ c ≠ '\r') (blanks : Blanks rest) :
      Blanks ('-' :: '-' :: body ++ '\n' :: rest)
  | block (flat : '/' ∉ body) (blanks : Blanks rest) :
      Blanks ('/' :: '*' :: body ++ '*' :: '/' :: rest)

def Closed (tail : List Char) : Prop := ∀ c ∈ tail.head?, Lexer.space c = true ∨ c = ';'

theorem unicodeSpace_of_space (blank : Lexer.space c = true) : unicodeSpace c = true := by
  simp only [Lexer.space, Bool.or_eq_true, beq_iff_eq] at blank
  rcases blank with ((((rfl | rfl) | rfl) | rfl) | code) | code <;>
    first | decide | simp [unicodeSpace, code]

theorem Blanks.leads (blanks : Blanks lead) : Leads lead := by
  induction blanks with
  | nil => exact .nil
  | space blank _ ih => exact .space (unicodeSpace_of_space blank) ih
  | line single _ ih => exact .line (fun inside => (single _ inside).1 rfl) ih
  | block flat _ ih => exact .block (fun inside => flat (inside.subset (by simp))) ih

namespace Lexer

variable {mode next : Mode} {text : List Char}

theorem scan_silent (silent : mode.step c = (next, [])) (text : List Char) :
    scan mode (c :: text) = scan next text := by
  simp [scan, silent]

theorem scan_line (single : ∀ c ∈ body, c ≠ '\n' ∧ c ≠ '\r') (text : List Char) :
    scan .lineComment (body ++ '\n' :: text) = scan .between text := by
  induction body with
  | nil => exact scan_silent rfl text
  | cons c _ ih =>
    have inside := single c mem_cons_self
    have stays : Mode.lineComment.step c = (.lineComment, []) := by simp [Mode.step, inside]
    rw [cons_append, scan_silent stays]
    exact ih fun d member => single d (mem_cons_of_mem c member)

theorem scan_block (flat : '/' ∉ body) (text : List Char)
    (inside : mode = .block 0 ∨ mode = .blockStar 0) :
    scan mode (body ++ '*' :: '/' :: text) = scan .between text := by
  induction body generalizing mode with
  | nil => rcases inside with rfl | rfl <;> exact scan_silent rfl _ |>.trans (scan_silent rfl text)
  | cons c _ ih =>
    rw [mem_cons, not_or] at flat
    have other : c ≠ '/' := fun same => flat.1 same.symm
    have moves : mode.step c = (if c = '*' then .blockStar 0 else .block 0, []) := by
      rcases inside with rfl | rfl <;> simp [Mode.step, other]
    rw [cons_append, scan_silent moves]
    exact ih flat.2 (by split <;> simp)

theorem scan_blanks (blanks : Blanks lead) (text : List Char) :
    scan .between (lead ++ text) = scan .between text := by
  induction blanks with
  | nil => rfl
  | space blank _ ih =>
    rw [cons_append, scan_silent (by simp only [Mode.step, Mode.enter, blank, if_true]; rfl), ih]
  | line single _ ih =>
    simp only [cons_append, append_assoc]
    rw [scan_silent rfl, scan_silent rfl, scan_line single, ih]
  | block flat _ ih =>
    simp only [cons_append, append_assoc]
    rw [scan_silent rfl, scan_silent rfl, scan_block flat _ (.inl rfl), ih]

theorem stepWord_closed (closed : space c = true ∨ c = ';') (letters : List Char) :
    Mode.stepWord letters c = Mode.enterAfter [Mode.wordToken letters] c := by
  have ends : identCont c = false ∧ c ≠ '\'' ∧ c ≠ '&' := by
    simp only [space, Bool.or_eq_true, beq_iff_eq] at closed
    rcases closed with (((((rfl | rfl) | rfl) | rfl) | code) | code) | rfl
    case inl.inl.inr | inl.inr =>
      have small : c = Char.ofNat c.toNat := (Char.ofNat_toNat c).symm
      rw [small, code]
      decide
    all_goals decide
  unfold Mode.stepWord
  rw [ends.1, if_neg Bool.false_ne_true]
  split
  case h_1 | h_2 | h_3 | h_4 => exact absurd rfl ends.2.1
  case h_5 => exact absurd rfl ends.2.2
  case h_6 => rfl

theorem scan_word {letters word tail : List Char} (alpha : ∀ c ∈ word, c.isAlpha = true)
    (closed : Closed tail) (read : scan (.word letters) (word ++ tail) = some tokens) :
    ∃ rest, tokens = Mode.wordToken (word.reverse ++ letters) :: rest := by
  induction word generalizing letters with
  | nil =>
    cases tail with
    | nil =>
      cases read
      exact ⟨[], rfl⟩
    | cons d _ =>
      rw [nil_append, scan, Mode.step, stepWord_closed (closed d rfl)] at read
      obtain ⟨_, _, rfl⟩ := map_eq_some_iff.mp read
      exact ⟨_, rfl⟩
  | cons c _ ih =>
    have goes : identCont c = true := by
      simp [identCont, tagCont, identStart, alpha c mem_cons_self]
    have grows : (Mode.word letters).step c = (.word (c :: letters), []) := by
      simp only [Mode.step, Mode.stepWord, goes, if_true]
    rw [cons_append, scan_silent grows] at read
    rw [reverse_cons, append_assoc]
    exact ih (fun d member => alpha d (mem_cons_of_mem c member)) read

end Lexer

/-- A text that opens with a refused word after what both skip offends, and is refused. -/
theorem offends_of_blanks {lead word tail : List Char} (blanks : Blanks lead)
    (refused : toAsciiLowercase (String.ofList word) ∈ refusedWords) (closed : Closed tail)
    (whole : (statements (String.ofList (lead ++ (word ++ tail)))).isSome = true) :
    Offends (String.ofList (lead ++ (word ++ tail))) ∧
      Refused (String.ofList (lead ++ (word ++ tail))) := by
  obtain ⟨nonempty, alpha⟩ := alpha_of_refused refused
  refine ⟨?_, ?_⟩
  · obtain ⟨parts, read⟩ := isSome_iff_exists.mp whole
    obtain ⟨tokens, scanned, rfl⟩ := map_eq_some_iff.mp read
    rw [String.toList_ofList, Lexer.scan_blanks blanks] at scanned
    obtain ⟨c, letters, rfl⟩ := exists_cons_of_ne_nil nonempty
    have begins : Lexer.Mode.between.step c = (.word [c], []) := by
      obtain ⟨ink, _⟩ := alpha_ink (alpha c mem_cons_self)
      have letter : Lexer.space c = false :=
        Bool.eq_false_iff.mpr fun blank => absurd (unicodeSpace_of_space blank) (by simp [ink])
      simp [Lexer.Mode.step, Lexer.Mode.enter, letter, Lexer.identStart, alpha c mem_cons_self]
    rw [cons_append, Lexer.scan_silent begins] at scanned
    obtain ⟨rest, rfl⟩ :=
      Lexer.scan_word (fun d member => alpha d (mem_cons_of_mem c member)) closed scanned
    obtain ⟨first, _, split⟩ := exists_cons_of_ne_nil (splitOnP_ne_nil (· == Token.semicolon) rest)
    refine ⟨_, read, Lexer.Mode.wordToken (letters.reverse ++ [c]) :: first, ?_, _, refused, ?_⟩
    · rw [splitOn, splitOnP_cons_eq_if_modifyHead, split]
      exact mem_cons_self
    · simp [Lexer.Mode.wordToken]
  · rw [refused_iff_opens]
    refine ⟨lead, word, tail, String.toList_ofList, blanks.leads, refused, fun c first => ?_⟩
    exact (closed c first).imp_left unicodeSpace_of_space

/-- A text with a statement that begins with a refused word is refused exactly when the
text itself opens with one: after whitespace, comments that end with their line, and
comments that do not nest, and up to whitespace, a semicolon or the end. -/
theorem guard_refuses_iff (sql : String) :
    (Offends sql → Refused sql) ↔ (Offends sql → Opens sql) := by
  rw [refused_iff_opens]

/-- The server nests comments, the guard does not. -/
theorem nested_comment_hides_begin :
    statements "/* /* */ */ begin" = some [[.word "begin"]] ∧ Offends "/* /* */ */ begin" ∧
      ¬ Refused "/* /* */ */ begin" := by
  have read : statements "/* /* */ */ begin" = some [[.word "begin"]] := rfl
  refine ⟨read, ⟨_, read, _, mem_cons_self, "begin", by decide, rfl⟩, ?_⟩
  rw [refused_iff_opens, ← firstWord_refused_iff]
  decide +kernel

end Usai.Postgres
