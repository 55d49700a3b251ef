import MiniScheme.Console.Completion
import MiniScheme.Proofs.Datum.Produced
import MiniScheme.Proofs.Eval.OneWorld

/-!
# What is offered at the cursor

The names that the console knows are the names of the special forms and those that can be
seen from a frame. Where all that has been evaluated was read from texts, every one of them
is a word. So if the symbol before the cursor goes up to the cursor, what is offered makes
it into a symbol that is known.

The console does not look where that symbol ends. Behind a blank or a comment it still
offers what is missing to the symbol before that, and there it would be a symbol by itself.

* `FromPrograms`, `FromPrograms.worded` — machines whose names come from programs;
* `count_candidates`, `pairwise_candidates` — what is missing to a start, once each and in
  order;
* `Segmented.extend` — the last symbol of a text made longer;
* `offers_of_last_symbol` — what is offered, whatever stands before the cursor.
-/

namespace MiniScheme

/-! ## Names that come from programs -/

/-- All that the machine binds was bound by programs, beside the built-in procedures. The
data of a program have been read from some text. -/
inductive FromPrograms : Machine → Prop
  | empty : FromPrograms .empty
  | global {m : Machine} (h : FromPrograms m) : FromPrograms (m.addGlobal Builtin.standard).2
  | frame {m : Machine} (h : FromPrograms m) (parent : Option FrameId) :
      FromPrograms (m.addFrame ⟨parent, []⟩).2
  | program {m : Machine} (h : FromPrograms m) {ds : List Datum} (hRead : ∀ d ∈ ds, d.Produced)
      (forms : FormTable) (fuel : Nat) (env : FrameId) (echo : Value → String) :
      FromPrograms (runProgram forms fuel env echo m ds).machine
  | displayed {m : Machine} (h : FromPrograms m) (output : String) :
      FromPrograms { m with output := output }

/-- What holds of every atom of a datum holds of each symbol in it. -/
theorem Datum.symbols_of_every {p : Atom → Prop} {d : Datum} (h : d.Every p) :
    ∀ name ∈ d.symbols, p (.symbol name) := by
  induction d with
  | atom a =>
    cases a with
    | symbol name => exact List.forall_mem_singleton.mpr h
    | _ => exact nofun
  | pair first rest ihFirst ihRest =>
    exact List.forall_mem_append.mpr ⟨ihFirst h.1, ihRest h.2⟩

/-- Names checked one by one are words that the reader takes for symbols. -/
theorem Atom.worded_of_all {names : List String}
    (h : names.all fun name => name.toList ≠ [] ∧ name.toList.all isWordChar ∧
      TokenKind.ofWord name.toList = .symbol name) :
    ∀ name ∈ names, (Atom.symbol name).Worded := by
  intro name hMem
  obtain ⟨hSome, hWord, hKind⟩ := of_decide_eq_true (List.all_eq_true.mp h name hMem)
  exact ⟨hSome, List.all_eq_true.mp hWord, hKind⟩

/-- Every builtin is named by a word. -/
theorem Builtin.name_worded : ∀ name ∈ Builtin.standard.map Builtin.name,
    (Atom.symbol name).Worded :=
  Atom.worded_of_all (by decide)

/-- Every keyword of a special form is a word. -/
theorem FormTable.keyword_worded : ∀ name ∈ FormTable.standard.names,
    (Atom.symbol name).Worded :=
  Atom.worded_of_all (by decide)

/-- There is a world with words for its names that the machine is in. -/
theorem FromPrograms.exists_world {m : Machine} (h : FromPrograms m) :
    ∃ w : World, w.names = (fun name => (Atom.symbol name).Worded) ∧ m.In w := by
  -- every change leads to a world that has grown
  induction h with
  | empty => exact ⟨⟨fun _ => none, _⟩, rfl, fun _ _ => rfl, nofun⟩
  | global h ih =>
    obtain ⟨w, hNames, hIn⟩ := ih
    have hBuiltins : ∀ b ∈ Builtin.standard, w.names b.name := by
      intro b hMem
      rw [hNames]
      exact Builtin.name_worded b.name (List.mem_map_of_mem hMem)
    obtain ⟨w', hLe, hIn'⟩ := hIn.exists_addGlobal hBuiltins
    exact ⟨w', hLe.names.trans hNames, hIn'⟩
  | frame h parent ih =>
    obtain ⟨w, hNames, hIn⟩ := ih
    exact ⟨w, hNames, hIn.addFrame nofun⟩
  | @program m h ds hRead forms fuel env echo ih =>
    obtain ⟨w, hNames, hIn⟩ := ih
    have hds : ∀ d ∈ ds, d.In w := by
      intro d hMem
      rw [Datum.In, hNames]
      exact Datum.symbols_of_every (hRead d hMem).worded
    obtain ⟨w', hLe, hIn', -⟩ := runProgram_stays forms fuel env echo hIn hds
    exact ⟨w', hLe.names.trans hNames, hIn'⟩
  | displayed h output ih =>
    obtain ⟨w, hNames, hIn⟩ := ih
    exact ⟨w, hNames, hIn.of_output output⟩

namespace Console

/-- The names of which one may be meant before a cursor. -/
def knownNames (m : Machine) (env : FrameId) : List String :=
  m.visibleNames env ++ FormTable.standard.names

end Console

/-- After programs only words are offered: the names of the chain come from texts that were read,
and the rest are builtins and keywords. -/
theorem FromPrograms.worded {m : Machine} (h : FromPrograms m) (env : FrameId) :
    ∀ name ∈ Console.knownNames m env, (Atom.symbol name).Worded := by
  obtain ⟨w, hNames, hIn⟩ := h.exists_world
  refine List.forall_mem_append.mpr ⟨fun name hVisible => ?_, FormTable.keyword_worded⟩
  obtain ⟨holder, f, v, hFrame, hBound⟩ :=
    Machine.exists_frame_of_namesWithin hVisible List.not_mem_nil
  have hName := (hIn.bound holder f hFrame name v hBound).1
  rw [hNames] at hName
  exact hName

/-! ## A longer symbol -/

/-- A word is a piece that is read as the symbol. -/
theorem Atom.Worded.lexeme {name : String} (h : (Atom.symbol name).Worded) :
    Lexeme name.toList (.symbol name) := by
  obtain ⟨hSome, hWord, hKind⟩ := h
  rw [← hKind]
  exact .word hSome hWord

/-- A text with tokens in it is not empty. -/
theorem Segmented.ne_nil {position : Nat} {text : List Char} {tokens : List Token}
    (h : Segmented position text tokens) (hSome : tokens ≠ []) : text ≠ [] := by
  cases h with
  | last h => exact absurd rfl hSome
  | token hGap hLexeme hWhole hRest => simp [hLexeme.ne_nil]

/-- A symbol that ends a text can be made longer, as long as its name is a word. -/
theorem Segmented.extend {position : Nat} {text : List Char} {tokens : List Token}
    (h : Segmented position text tokens) {start more : String} {span : Span}
    (hLast : tokens.getLast? = some ⟨.symbol start, span⟩)
    (hStop : span.stop = position + byteLength text)
    (hWorded : (Atom.symbol (start ++ more)).Worded) :
    ∃ span', Segmented position (text ++ more.toList)
      (tokens.dropLast ++ [⟨.symbol (start ++ more), span'⟩]) := by
  -- Token by token; only the last one grows, and the others stay as they are cut.
  induction h with
  | last h => cases hLast
  | @token position gap slice rest kind tokens hGap hLexeme hWhole hRest ih =>
    rw [byteLength_append, byteLength_append] at hStop
    cases tokens with
    | nil =>
      cases hLast
      have hRest' : rest = [] := eq_nil_of_byteLength (by dsimp only at hStop; omega)
      have hLonger := hWorded.lexeme
      rw [String.toList_append, ← hLexeme.eq_toList] at hLonger
      have hCut : Segmented position (gap ++ (slice ++ more.toList) ++ []) _ :=
        .token hGap hLonger (fun _ => nofun) (.last .nil)
      rw [hRest', List.append_nil]
      rw [List.append_nil, ← List.append_assoc] at hCut
      exact ⟨_, hCut⟩
    | cons t tokens =>
      rw [List.getLast?_cons_cons] at hLast
      obtain ⟨span', hCut⟩ := ih hLast (by omega)
      have hHead : kind.isWord → ∀ c ∈ (rest ++ more.toList).head?, isWordChar c = false := by
        intro hKind c hc
        rw [List.head?_append_of_ne_nil _ (hRest.ne_nil (List.cons_ne_nil t tokens))] at hc
        exact hWhole hKind c hc
      rw [List.dropLast_cons_cons, List.append_assoc]
      exact ⟨span', .token hGap hLexeme hHead hCut⟩

namespace Console

/-! ## What is missing to a name -/

/-- What is missing to a name is the rest of it after the symbol begun. -/
theorem missingPart?_eq_some_iff {start name c : String} :
    missingPart? start name = some c ↔ start ++ c = name := by
  rw [← String.toList_inj, String.toList_append]
  unfold missingPart?
  split
  · rename_i hBegins
    obtain ⟨rest, hRest⟩ := List.isPrefixOf_iff_prefix.mp hBegins
    rw [← hRest, List.drop_left, Option.some_inj, List.append_cancel_left_eq, ← String.toList_inj,
      String.toList_ofList]
    exact eq_comm
  · rename_i hBegins
    refine iff_of_false nofun fun hName => hBegins ?_
    rw [← hName]
    exact List.isPrefixOf_iff_prefix.mpr (List.prefix_append _ _)

/-- Nothing stands twice in a list from which the repetitions are erased. -/
theorem nodup_eraseDups (names : List String) : names.eraseDups.Nodup := by
  -- the names that are left after the first one may be any of the others
  induction hLength : names.length using Nat.strongRecOn generalizing names with
  | ind n ih =>
    subst hLength
    cases names with
    | nil => exact List.nodup_nil
    | cons name names =>
      rw [List.eraseDups_cons, List.nodup_cons, List.mem_eraseDups]
      refine ⟨by simp, ih _ ?_ _ rfl⟩
      exact Nat.lt_succ_of_le (List.length_filter_le _ _)

/-- What is missing to each name that begins so is there once, and nothing else is. -/
theorem count_candidates (names : List String) (start c : String) :
    (candidates names start).count c = if start ++ c ∈ names then 1 else 0 := by
  have hOnce : (names.eraseDups.filterMap (missingPart? start)).Nodup := by
    refine (nodup_eraseDups names).filterMap fun name name' c hName hName' => ?_
    rw [← missingPart?_eq_some_iff.mp hName, ← missingPart?_eq_some_iff.mp hName']
  have hMem : c ∈ names.eraseDups.filterMap (missingPart? start) ↔ start ++ c ∈ names := by
    simp only [List.mem_filterMap, List.mem_eraseDups, missingPart?_eq_some_iff, exists_eq_right']
  rw [candidates, (List.mergeSort_perm _ _).count_eq, hOnce.count]
  simp only [hMem]

/-- Candidates come in order. -/
theorem pairwise_candidates (names : List String) (start : String) :
    (candidates names start).Pairwise (· ≤ ·) := by
  have hSorted : (candidates names start).Pairwise fun a b => decide (a ≤ b) := by
    refine List.pairwise_mergeSort (fun a b c hab hbc => ?_) (fun a b => ?_) _
    · exact decide_eq_true (String.le_trans (of_decide_eq_true hab) (of_decide_eq_true hbc))
    · simpa using String.le_total a b
  exact hSorted.imp of_decide_eq_true

/-! ## What is offered -/

/-- As many bytes as a beginning of the line has are that beginning. -/
theorem takeBytes?_byteLength (before rest : List Char) :
    takeBytes? (byteLength before) (before ++ rest) = some before := by
  induction before with
  | nil => cases rest <;> rfl
  | cons c before ih =>
    obtain ⟨n, hSize⟩ := Nat.exists_eq_add_one.mpr c.utf8Size_pos
    have hNext : byteLength (c :: before) = n + byteLength before + 1 := by
      rw [byteLength_cons]
      omega
    have hRest : n + byteLength before + 1 - c.utf8Size = byteLength before := by omega
    have hTake : takeBytes? (n + byteLength before + 1) (c :: (before ++ rest)) =
        if c.utf8Size ≤ n + byteLength before + 1 then
          (takeBytes? (n + byteLength before + 1 - c.utf8Size) (before ++ rest)).map (c :: ·)
        else none := rfl
    rw [hNext, List.cons_append, hTake, if_pos (by omega), hRest, ih]
    rfl

/-- The last symbol of a text is its last token, if that is a symbol. -/
theorem lastSymbol?_eq_some_iff {tokens : List Token} {name : String} :
    lastSymbol? tokens = some name ↔ ∃ span, tokens.getLast? = some ⟨.symbol name, span⟩ := by
  unfold lastSymbol?
  split
  · rename_i other span hLast
    rw [hLast, Option.some_inj]
    simp
  · rename_i hLast
    exact iff_of_false nofun fun ⟨span, hSome⟩ => hLast name span hSome

/-- At a place that the text before is cut into tokens for, the names offered are the candidates
for the last of them, and none unless it is a symbol. -/
theorem complete?_eq {names : List String} {line : String} {before rest : List Char}
    {tokens : List Token} (hLine : line.toList = before ++ rest)
    (hTokens : tokenizeAt 0 before = .ok tokens) :
    complete? names line (byteLength before) =
      some (((lastSymbol? tokens).map (candidates names)).getD []) := by
  rw [complete?, hLine, takeBytes?_byteLength, Option.bind_eq_bind, Option.bind_some, hTokens]
  dsimp only
  cases lastSymbol? tokens <;> rfl

/-- **What is offered is missing to the last symbol before the cursor.** Where the last token
before it is no symbol, that is nothing. Else what makes the symbol into a known name is
offered once, nothing else is, and the offers are in order. If the symbol ends at the cursor,
the text with an offer added to it ends in a symbol that is known. -/
theorem offers_of_last_symbol {m : Machine} (hm : FromPrograms m) (env : FrameId) {line : String}
    {before rest : List Char} {tokens : List Token} (hLine : line.toList = before ++ rest)
    (hTokens : tokenizeAt 0 before = .ok tokens) :
    ∃ offers, complete? (knownNames m env) line (byteLength before) = some offers ∧
      offers.Pairwise (· ≤ ·) ∧
      (lastSymbol? tokens = none → offers = []) ∧
      ∀ start span, tokens.getLast? = some ⟨.symbol start, span⟩ →
        (∀ c, offers.count c = if start ++ c ∈ knownNames m env then 1 else 0) ∧
        (span.stop = byteLength before → ∀ c ∈ offers, ∃ extended name,
          tokenizeAt 0 (before ++ c.toList) = .ok extended ∧ lastSymbol? extended = some name ∧
          name ∈ knownNames m env) := by
  refine ⟨_, complete?_eq hLine hTokens, ?_, ?_, ?_⟩
  · cases lastSymbol? tokens with
    | none => exact .nil
    | some start => exact pairwise_candidates _ start
  · intro hNone
    rw [hNone]
    rfl
  · intro start span hLast
    rw [lastSymbol?_eq_some_iff.mpr ⟨span, hLast⟩]
    refine ⟨count_candidates _ start, fun hStop c hc => ?_⟩
    -- What is offered completes a known name, and known names are words.
    have hKnown : start ++ c ∈ knownNames m env := by
      by_contra hUnknown
      have hCount := count_candidates (knownNames m env) start c
      rw [if_neg hUnknown, List.count_eq_zero] at hCount
      exact hCount hc
    have hCut := tokenizeAt_eq_ok_iff.mp hTokens
    obtain ⟨span', hLonger⟩ :=
      hCut.extend hLast (by rw [hStop, Nat.zero_add]) (hm.worded env _ hKnown)
    refine ⟨_, start ++ c, hLonger.tokenizeAt_eq, ?_, hKnown⟩
    exact lastSymbol?_eq_some_iff.mpr ⟨span', List.getLast?_concat⟩

/-- After `(define cat #t)` the names that begin with `ca` are those of built-in procedures and
`cat`, which the program has bound. -/
theorem offers_of_last_symbol_defined :
    ∃ ds, parseProgram "(define cat #t)" = .ok ds ∧
      let m := (runProgram .standard 5 0 noEcho .populated ds).machine
      FromPrograms m ∧ "cat" ∉ knownNames .populated 0 ∧
        "(ca b)".toList = "(ca".toList ++ " b)".toList ∧
        tokenizeAt 0 "(ca".toList = .ok [⟨.leftParen, 0, 1⟩, ⟨.symbol "ca", 1, 3⟩] ∧
        ∃ offers, complete? (knownNames m 0) "(ca b)" 3 = some offers ∧
          offers.count "t" = 1 ∧ offers.count "r" = 1 ∧ offers.count "b" = 0 ∧
          ∀ c ∈ offers, ∃ extended name, tokenizeAt 0 ("(ca".toList ++ c.toList) = .ok extended ∧
            lastSymbol? extended = some name ∧ name ∈ knownNames m 0 := by
  let ds : List Datum :=
    [.ofList [.symbol "define", .symbol "cat", .atom (.boolean true)] .nil]
  let m := (runProgram .standard 5 0 noEcho .populated ds).machine
  have hParse : parseProgram "(define cat #t)" = .ok ds := by rfl
  have hRead : ∀ d ∈ ds, d.Produced := fun d hMem => ⟨_, .inr ⟨ds, hParse, hMem⟩⟩
  have hStart : FromPrograms .populated := .global .empty
  have hm : FromPrograms m := hStart.program hRead .standard 5 0 noEcho
  have hLine : "(ca b)".toList = "(ca".toList ++ " b)".toList := by decide
  have hTokens : tokenizeAt 0 "(ca".toList = .ok [⟨.leftParen, 0, 1⟩, ⟨.symbol "ca", 1, 3⟩] := by
    decide
  obtain ⟨offers, hOffers, -, -, hLast⟩ := offers_of_last_symbol hm 0 hLine hTokens
  obtain ⟨hCount, hExtend⟩ := hLast "ca" ⟨1, 3⟩ rfl
  refine ⟨ds, hParse, hm, by decide, hLine, hTokens, offers, hOffers, ?_, ?_, ?_, hExtend rfl⟩
  · rw [hCount, if_pos (by decide +kernel)]
  · rw [hCount, if_pos (by decide +kernel)]
  · rw [hCount, if_neg (by decide +kernel)]

/-- Behind a blank, what is missing to the symbol before it is offered, and is a symbol by itself
that nobody knows. -/
theorem offered_after_blank :
    tokenizeAt 0 "ca ".toList = .ok [⟨.symbol "ca", 0, 2⟩] ∧
      (∃ offers, complete? (knownNames .populated 0) "ca " 3 = some offers ∧ "r" ∈ offers) ∧
      tokenizeAt 0 "ca r".toList = .ok [⟨.symbol "ca", 0, 2⟩, ⟨.symbol "r", 3, 4⟩] ∧
      "r" ∉ knownNames .populated 0 := by
  have hLine : "ca ".toList = "ca ".toList ++ [] := rfl
  have hTokens : tokenizeAt 0 "ca ".toList = .ok [⟨.symbol "ca", 0, 2⟩] := by decide
  refine ⟨hTokens, ⟨_, complete?_eq hLine hTokens, ?_⟩, by decide, by decide⟩
  have hCount := count_candidates (knownNames .populated 0) "ca" "r"
  rw [if_pos (by decide)] at hCount
  exact List.one_le_count_iff.mp (Nat.le_of_eq hCount.symm)

end Console
end MiniScheme
