import MiniScheme.Proofs.Datum.Grammar

/-!
# Where the errors of the reader point

The reader refuses a row of tokens at the first token with which it can no longer
be the beginning of a sentence, and at the end if it has been one all the way. What
makes this so is that every stack of open constructs can still be finished.

* `Viable` — the tokens are the beginning of a sentence of a language;
* `Unfinished` — what the innermost construct that some tokens leave open waits
  for, told from the tokens alone;
* `ParseError.PointsAt` — the error is about the first misfit, or about the end;
* `Construct.Reached.viable`, `Construct.Reached.reads` — every stack that some
  tokens lead to can be finished, and the reader is at that stack after them;
* `reader_errors_point_at_first_misfit` — errors point there, for one datum,
  exactly one datum and any number of data.
-/

namespace MiniScheme

/-! ## Languages and errors -/

/-- The tokens spell one datum. -/
def SpellsDatum (ts : List Token) : Prop := ∃ d, Derives ts d

/-- The tokens spell any number of data. -/
def SpellsData (ts : List Token) : Prop := ∃ ds, DerivesAll ts ds

/-- The tokens are the beginning of a sentence. -/
def Viable (sentence : List Token → Prop) (ts : List Token) : Prop := ∃ more, sentence (ts ++ more)

/-- What the innermost construct that the tokens leave open waits for. -/
inductive Unfinished : List Token → Expectation → Prop
  /-- Nothing has begun. -/
  | nothing : Unfinished [] .expression
  | marked {ts : List Token} {t : Token} {m : Mark} (hMark : t.kind = .mark m) :
      Unfinished (ts ++ [t]) .expression
  | dotted {ts : List Token} {dot : Token} (hDot : dot.kind = .dot) :
      Unfinished (ts ++ [dot]) .expression
  /-- All that comes after the parenthesis is elements, a dot and the datum behind it. -/
  | closing {ts us vs : List Token} {opening dot : Token} {ds : List Datum} {tail : Datum}
      (hOpen : opening.kind = .leftParen) (hItems : DerivesAll us ds) (hSome : ds ≠ [])
      (hDot : dot.kind = .dot) (hTail : Derives vs tail) :
      Unfinished (ts ++ opening :: (us ++ dot :: vs)) .closeAfterDot
  /-- All that comes after the parenthesis is elements. -/
  | list {ts us : List Token} {opening : Token} {ds : List Datum}
      (hOpen : opening.kind = .leftParen) (hItems : DerivesAll us ds) :
      Unfinished (ts ++ opening :: us) (.close opening.span)

/-- The error is about the first token with which the tokens are no longer the
beginning of a sentence, and `rest` is what comes after it; or they are one all
the way and end too early. -/
inductive ParseError.PointsAt (sentence : List Token → Prop) (ts rest : List Token) :
    ParseError → Prop
  | token {before : List Token} {found : Token} {expected : Expectation}
      (hSplit : ts = before ++ found :: rest) (hBefore : Viable sentence before)
      (hMisfit : ¬ Viable sentence (before ++ [found])) :
      PointsAt sentence ts rest (.unexpectedToken found expected)
  | dot {before : List Token} {found : Token} (hSplit : ts = before ++ found :: rest)
      (hBefore : Viable sentence before) (hMisfit : ¬ Viable sentence (before ++ [found])) :
      PointsAt sentence ts rest (.invalidDot found.span)
  | ending {expected : Expectation} (hRest : rest = []) (hViable : Viable sentence ts)
      (hPart : ¬ sentence ts) (hExpected : Unfinished ts expected) :
      PointsAt sentence ts rest (.unexpectedEnd expected)

/-- What is unfinished stays so after other tokens, unless it is nothing yet. -/
theorem Unfinished.append {ts : List Token} {expected : Expectation} (h : Unfinished ts expected)
    (before : List Token) (hBegun : before = [] ∨ ts ≠ []) :
    Unfinished (before ++ ts) expected := by
  cases h with
  | nothing =>
    obtain rfl | hBegun := hBegun
    · exact .nothing
    · exact absurd rfl hBegun
  | marked hMark =>
    rw [← List.append_assoc]
    exact .marked hMark
  | dotted hDot =>
    rw [← List.append_assoc]
    exact .dotted hDot
  | closing hOpen hItems hSome hDot hTail =>
    rw [← List.append_assoc]
    exact .closing hOpen hItems hSome hDot hTail
  | list hOpen hItems =>
    rw [← List.append_assoc]
    exact .list hOpen hItems

/-! ## Every stack can be finished -/

namespace Construct

/-- Once a datum comes, the constructs around it can all be closed. -/
theorem Opened.viable_append {stack : List Construct} {ts : List Token} (h : Opened stack ts)
    {us : List Token} {d : Datum} (hd : Derives us d) : Viable SpellsDatum (ts ++ us) := by
  have hClose : Token.kind ⟨.rightParen, 0, 0⟩ = .rightParen := rfl
  -- The innermost construct becomes a datum of the one around it.
  induction h generalizing us d with
  | outermost => exact ⟨[], d, by rwa [List.append_nil]⟩
  | marked h hMark ih =>
    rw [List.append_assoc]
    exact ih (.marked hMark hd)
  | @list outer ts vs t items h hOpen hItems ih =>
    have hAll : DerivesAll (vs ++ us) (items.reverse ++ [d]) := hItems.append hd.single
    obtain ⟨more, e, he⟩ := ih (.list hOpen hAll hClose)
    refine ⟨⟨.rightParen, 0, 0⟩ :: more, e, ?_⟩
    simpa using he
  | @dotted outer ts vs t dot items h hOpen hItems hSome hDot ih =>
    have hSome : items.reverse ≠ [] := by simpa
    obtain ⟨more, e, he⟩ := ih (.dotted hOpen hItems hSome hDot hd hClose)
    refine ⟨⟨.rightParen, 0, 0⟩ :: more, e, ?_⟩
    simpa using he

/-- Tokens that lead to some stack are the beginning of a datum. -/
theorem Reached.viable {stack : List Construct} {ts : List Token} (h : Reached stack ts) :
    Viable SpellsDatum ts := by
  cases h with
  | opened h =>
    -- any atom will do for the datum that comes next
    have hAtom : Derives [⟨.boolean true, 0, 0⟩] (.atom (.boolean true)) := .atom rfl
    obtain ⟨more, hMore⟩ := h.viable_append hAtom
    rw [List.append_assoc] at hMore
    exact ⟨_, hMore⟩
  | @closing outer ts us vs t dot items tail h hOpen hItems hSome hDot hTail =>
    have hSome : items.reverse ≠ [] := by simpa
    have hClose : Token.kind ⟨.rightParen, 0, 0⟩ = .rightParen := rfl
    have hd := Derives.dotted hOpen hItems hSome hDot hTail hClose
    obtain ⟨more, hMore⟩ := h.viable_append hd
    refine ⟨⟨.rightParen, 0, 0⟩ :: more, ?_⟩
    simpa using hMore

/-- The expectation of a stack can be told from the tokens that lead to it. -/
theorem Reached.unfinished {stack : List Construct} {ts : List Token} (h : Reached stack ts) :
    Unfinished ts (expected stack) := by
  cases h with
  | opened h =>
    cases h with
    | outermost => exact .nothing
    | marked h hMark => exact .marked hMark
    | list h hOpen hItems => exact .list hOpen hItems
    | @dotted outer ts us t dot items h hOpen hItems hSome hDot =>
      have hEq : ts ++ t :: (us ++ [dot]) = (ts ++ t :: us) ++ [dot] := by simp
      rw [hEq]
      exact .dotted hDot
  | closing h hOpen hItems hSome hDot hTail => exact .closing hOpen hItems (by simpa) hDot hTail

/-! ## The reader is at the stack that the tokens lead to -/

/-- From the beginning, the reader comes through these tokens to this stack, and goes on
from there. -/
theorem Opened.reads {stack : List Construct} {ts : List Token} (h : Opened stack ts)
    (rest : List Token) : readWithin [] (ts ++ rest) = readWithin stack rest := by
  have hAwaits : ∀ {stack : List Construct} {ts : List Token}, Opened stack ts → Awaits stack := by
    intro stack ts h
    cases h <;> trivial
  -- From the outermost construct inwards; the items of a list so far are read by the grammar.
  induction h generalizing rest with
  | outermost => rfl
  | marked h hMark ih =>
    rw [List.append_assoc, ih, List.singleton_append, readWithin_cons (take_mark (hAwaits h) hMark)]
    rfl
  | list h hOpen hItems ih =>
    rw [List.append_assoc, ih, List.cons_append, readWithin_cons (take_open (hAwaits h) hOpen)]
    rw [Progress.resume, hItems.read, List.reverse_reverse, List.append_nil]
  | dotted h hOpen hItems hSome hDot ih =>
    rw [List.append_assoc, ih, List.cons_append, readWithin_cons (take_open (hAwaits h) hOpen)]
    rw [Progress.resume, List.append_assoc, hItems.read, List.reverse_reverse, List.append_nil]
    rw [List.singleton_append, readWithin_cons (take_dot hSome hDot)]
    rfl

/-- Through tokens that lead to a stack the reader comes to it. -/
theorem Reached.reads {stack : List Construct} {ts : List Token} (h : Reached stack ts)
    (rest : List Token) : readWithin [] (ts ++ rest) = readWithin stack rest := by
  cases h with
  | opened h => exact h.reads rest
  | @closing outer ts us vs t dot items tail h hOpen hItems hSome hDot hTail =>
    have hRead := (Opened.dotted h hOpen hItems hSome hDot).reads (vs ++ rest)
    rw [hTail.read awaits_dotted] at hRead
    simpa [give, Progress.resume] using hRead

/-- A token that is not taken is what the error is about. -/
theorem take_eq_error {stack : List Construct} {t : Token} {e : ParseError}
    (h : take stack t = .error e) :
    e = .invalidDot t.span ∨ ∃ expected, e = .unexpectedToken t expected := by
  have hBegin : ∀ {stack : List Construct}, begin stack t = .error e →
      e = .invalidDot t.span ∨ ∃ expected, e = .unexpectedToken t expected := by
    intro stack h
    unfold begin at h
    split at h <;> cases h
    · exact .inl rfl
    · exact .inr ⟨_, rfl⟩
  -- In a list, after its tail, and elsewhere, where a datum must begin.
  unfold take at h
  split at h
  · split at h
    · cases h
    · cases h
    · exact hBegin h
  · split at h
    · cases h
    · cases h
      exact .inr ⟨_, rfl⟩
  · exact hBegin h

/-- Reading fails at the end with some constructs open, or at a token that is not
taken; the tokens before that place lead to the stack there. -/
theorem Reached.misread {stack : List Construct} {ts : List Token} (h : Reached stack ts)
    {us rest : List Token} {e : ParseError} (hRead : readWithin stack us = (.error e, rest)) :
    (∃ last, Reached last (ts ++ us) ∧ rest = [] ∧ e = .unexpectedEnd (expected last)) ∨
      ∃ last vs t, Reached last (ts ++ vs) ∧ us = vs ++ t :: rest ∧
        Construct.take last t = .error e := by
  -- Token by token: what has been read moves from `us` over to `ts`.
  induction us generalizing stack ts with
  | nil =>
    cases hRead
    exact .inl ⟨stack, by rwa [List.append_nil], rfl, rfl⟩
  | cons t us ih =>
    cases hTake : Construct.take stack t with
    | error e' =>
      rw [readWithin, hTake] at hRead
      cases hRead
      exact .inr ⟨stack, [], t, by rwa [List.append_nil], rfl, hTake⟩
    | ok p =>
      rw [readWithin_cons hTake] at hRead
      have hReached := h.take hTake
      cases p with
      | finished d => cases hRead
      | within next =>
        have hAssoc : ∀ vs, ts ++ [t] ++ vs = ts ++ t :: vs := fun vs => by simp
        obtain ⟨last, hLast, hRest, hError⟩ | ⟨last, vs, t', hLast, hEq, hError⟩ :=
          ih hReached hRead
        · exact .inl ⟨last, hAssoc us ▸ hLast, hRest, hError⟩
        · refine .inr ⟨last, t :: vs, t', hAssoc vs ▸ hLast, ?_, hError⟩
          rw [hEq, List.cons_append]

end Construct

/-! ## One datum within a language -/

/-- An error about one datum points at the first misfit, also among the sentences
in which other tokens come before that datum. -/
theorem readDatum_error_pointsAt {sentence : List Token → Prop} {before : List Token}
    (hViable : ∀ {us}, Viable SpellsDatum us → Viable sentence (before ++ us))
    (hUnread : ∀ {us e rest}, us ≠ [] → readDatum us = (.error e, rest) → ¬ sentence (before ++ us))
    {us rest : List Token} (hSome : us ≠ []) {e : ParseError}
    (hRead : readDatum us = (.error e, rest)) : e.PointsAt sentence (before ++ us) rest := by
  have hMisread := Construct.Reached.misread (.opened .outermost) hRead
  simp only [List.nil_append] at hMisread
  obtain ⟨last, hLast, rfl, rfl⟩ | ⟨last, vs, t, hLast, rfl, hTake⟩ := hMisread
  · -- the tokens have come to their end
    have hExpected := hLast.unfinished.append before (.inr hSome)
    exact .ending rfl (hViable hLast.viable) (hUnread hSome hRead) hExpected
  · -- Whatever comes after the token, reading fails there.
    have hFails : ∀ more, readDatum (vs ++ t :: more) = (.error e, more) := by
      intro more
      rw [readDatum, hLast.reads, readWithin, hTake]
    have hBefore : Viable sentence (before ++ vs) := hViable hLast.viable
    have hMisfit : ¬ Viable sentence (before ++ vs ++ [t]) := by
      rintro ⟨more, hMore⟩
      have hSome' : vs ++ t :: more ≠ [] := by simp
      refine hUnread hSome' (hFails more) ?_
      simpa using hMore
    have hSplit : before ++ (vs ++ t :: rest) = before ++ vs ++ t :: rest := by
      rw [List.append_assoc]
    obtain rfl | ⟨expected, rfl⟩ := Construct.take_eq_error hTake
    · exact .dot hSplit hBefore hMisfit
    · exact .token hSplit hBefore hMisfit

/-- Where reading a datum fails, no datum is spelt. -/
theorem not_spellsDatum {us rest : List Token} {e : ParseError}
    (hRead : readDatum us = (.error e, rest)) : ¬ SpellsDatum us := by
  rintro ⟨d, hd⟩
  have hOk : readDatum us = (.ok d, []) := readDatum_eq_ok_iff.mpr ⟨us, by simp, hd⟩
  rw [hRead] at hOk
  cases hOk

/-- An error about one datum points at the first token that no datum goes on with. -/
theorem readDatum_error {us rest : List Token} {e : ParseError}
    (hRead : readDatum us = (.error e, rest)) : e.PointsAt SpellsDatum us rest := by
  cases us with
  | nil =>
    -- Without tokens the reader has not begun.
    have hNot := not_spellsDatum hRead
    cases hRead
    have hViable := (Construct.Reached.opened .outermost).viable
    exact .ending rfl hViable hNot .nothing
  | cons t us =>
    show e.PointsAt SpellsDatum ([] ++ t :: us) rest
    refine readDatum_error_pointsAt ?_ ?_ (List.cons_ne_nil t us) hRead
    · intro us hViable
      exact hViable
    · intro us e rest _ hRead
      exact not_spellsDatum hRead

/-! ## Exactly one datum, any number of data -/

/-- With exactly one datum asked for, a token that comes after it is a misfit too. -/
theorem parseOne_error {ts : List Token} {e : ParseError} (h : parseOne ts = .error e) :
    ∃ rest, e.PointsAt SpellsDatum ts rest := by
  unfold parseOne at h
  split at h
  · rename_i e' rest hRead
    cases h
    exact ⟨rest, readDatum_error hRead⟩
  · cases h
  · rename_i d found rest hRead
    cases h
    obtain ⟨us, hSplit, hd⟩ := readDatum_eq_ok_iff.mp hRead
    refine ⟨rest, .token hSplit ⟨[], d, by rwa [List.append_nil]⟩ ?_⟩
    -- A datum that goes on after a datum would begin with it, and so be it.
    rintro ⟨more, e, he⟩
    have hEq : us ++ ([found] ++ more) = us ++ [found] ++ more ++ [] := by simp
    obtain ⟨hSame, -⟩ := hd.front_unique he hEq
    have hLength := congrArg List.length hSame
    simp at hLength

/-- Data in front are read before the others. -/
theorem parseAll_append {ts : List Token} {ds : List Datum} (h : DerivesAll ts ds)
    (us : List Token) : parseAll (ts ++ us) = (parseAll us).map (ds ++ ·) := by
  induction ds generalizing ts with
  | nil =>
    cases h
    cases hParse : parseAll us <;> simp [hParse, Except.map]
  | cons d ds ih =>
    cases h with
    | @cons vs ws _ _ hd hs =>
      obtain ⟨t, vs, rfl⟩ := List.exists_cons_of_ne_nil hd.ne_nil
      have hRead : readDatum (t :: vs ++ (ws ++ us)) = (.ok d, ws ++ us) :=
        readDatum_eq_ok_iff.mpr ⟨t :: vs, rfl, hd⟩
      rw [List.append_assoc]
      rw [List.cons_append] at hRead ⊢
      rw [parseAll_cons, hRead]
      simp only [ih hs]
      cases hParse : parseAll us <;> simp [Except.map]

/-- When reading to the end fails, it is one datum that is not read, after some
that were. -/
theorem parseAll_eq_error {ts : List Token} {e : ParseError} (h : parseAll ts = .error e) :
    ∃ before ds us rest, ts = before ++ us ∧ DerivesAll before ds ∧ us ≠ [] ∧
      readDatum us = (.error e, rest) := by
  -- A datum may use up any number of tokens, so the induction is on how many are left.
  induction hLength : ts.length using Nat.strongRecOn generalizing ts with
  | ind n ih =>
    cases ts with
    | nil => cases h
    | cons t ts =>
      rw [parseAll_cons] at h
      have hShorter := readDatum_length_lt t ts
      cases hRead : readDatum (t :: ts) with
      | mk result rest =>
        rw [hRead] at h hShorter
        cases result with
        | error e' =>
          cases h
          exact ⟨[], [], t :: ts, rest, rfl, .nil, List.cons_ne_nil t ts, hRead⟩
        | ok d =>
          obtain ⟨vs, hSplit, hd⟩ := readDatum_eq_ok_iff.mp hRead
          cases hRest : parseAll rest with
          | ok es => simp [hRest, Except.map] at h
          | error e' =>
            simp only [hRest, Except.map, Except.error.injEq] at h
            subst h
            obtain ⟨before, ds, us, left, rfl, hBefore, hSome, hLast⟩ :=
              ih rest.length (hLength ▸ hShorter) hRest rfl
            refine ⟨vs ++ before, d :: ds, us, left, ?_, .cons hd hBefore, hSome, hLast⟩
            rw [hSplit, List.append_assoc]

/-- An error among data points at the first token that no data go on with. -/
theorem parseAll_error {ts : List Token} {e : ParseError} (h : parseAll ts = .error e) :
    ∃ rest, e.PointsAt SpellsData ts rest := by
  obtain ⟨before, ds, us, rest, rfl, hBefore, hSome, hRead⟩ := parseAll_eq_error h
  refine ⟨rest, readDatum_error_pointsAt ?_ ?_ hSome hRead⟩
  · rintro us ⟨more, d, hd⟩
    refine ⟨more, ds ++ [d], ?_⟩
    rw [List.append_assoc]
    exact hBefore.append hd.single
  · rintro us e rest hSome hRead ⟨es, hes⟩
    -- All of it would be read, but the reader comes to the datum that is not.
    have hParse := parseAll_of_derivesAll hes
    obtain ⟨t, us, rfl⟩ := List.exists_cons_of_ne_nil hSome
    rw [parseAll_append hBefore, parseAll_cons, hRead] at hParse
    cases hParse

/-! ## All errors -/

/-- **Errors of the reader point at the first misfit.** An error about a token is
about the first one with which the tokens are no longer the beginning of a datum,
or of data; an error about the end comes where they are one all the way and no
whole one, and tells what the innermost construct waits for. A failed reading of
one datum has used up the tokens up to that place. -/
theorem reader_errors_point_at_first_misfit :
    (∀ ts e, parseOne ts = .error e → ∃ rest, e.PointsAt SpellsDatum ts rest) ∧
      (∀ ts e, parseAll ts = .error e → ∃ rest, e.PointsAt SpellsData ts rest) ∧
      (∀ ts e rest, readDatum ts = (.error e, rest) → e.PointsAt SpellsDatum ts rest) :=
  ⟨fun _ _ => parseOne_error, fun _ _ => parseAll_error, fun _ _ _ => readDatum_error⟩

/-- In `(a . b c)` the misfit is `c`, and only `)` is left after it; `'(a` ends too
early, within the parenthesis at 1. -/
theorem reader_errors_point_at_first_misfit_dotted :
    let begun : List Token :=
      [⟨.leftParen, 0, 1⟩, ⟨.symbol "a", 1, 2⟩, ⟨.dot, 3, 4⟩, ⟨.symbol "b", 5, 6⟩]
    let misfit : Token := ⟨.symbol "c", 7, 8⟩
    let left : List Token := [⟨.rightParen, 8, 9⟩]
    let short : List Token := [⟨.mark .quote, 0, 1⟩, ⟨.leftParen, 1, 2⟩, ⟨.symbol "a", 2, 3⟩]
    readDatum (begun ++ misfit :: left) = (.error (.unexpectedToken misfit .closeAfterDot), left) ∧
      Viable SpellsDatum begun ∧ ¬ Viable SpellsDatum (begun ++ [misfit]) ∧
      (∃ rest, (ParseError.unexpectedToken misfit .closeAfterDot).PointsAt SpellsDatum
        (begun ++ misfit :: left) rest) ∧
      ∃ rest, (ParseError.unexpectedEnd (.close ⟨1, 2⟩)).PointsAt SpellsData short rest := by
  intro begun misfit left short
  have hRead : readDatum (begun ++ misfit :: left) =
      (.error (.unexpectedToken misfit .closeAfterDot), left) := rfl
  have hOne := reader_errors_point_at_first_misfit.1 (begun ++ misfit :: left) _ rfl
  have hAll := reader_errors_point_at_first_misfit.2.1 short _ rfl
  have hPlace := reader_errors_point_at_first_misfit.2.2 _ _ _ hRead
  cases hPlace with
  | token hSplit hBefore hMisfit =>
    have hSame := List.append_cancel_right hSplit
    subst hSame
    exact ⟨hRead, hBefore, hMisfit, hOne, hAll⟩

end MiniScheme
