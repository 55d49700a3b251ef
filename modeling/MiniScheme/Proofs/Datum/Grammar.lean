import MiniScheme.Datum.Reader

/-!
# The grammar of the reader

A datum is an atom, a mark with a datum, a list, or a list with a dot before its
last part. The grammar says which rows of tokens spell a datum; the reader is a
stack of open constructs. The two are tied together by what a stack stands for:
the tokens that opened it.

* `Derives`, `DerivesAll` — the rows of tokens that spell one datum, and any
  number of data;
* `Construct.Opened` — the stacks that some tokens lead to;
* `Derives.read` — the reader takes every row the grammar derives, whatever
  stands around it;
* `Construct.Reached.read` — what the reader takes is derived by the grammar;
* `reader_accepts_grammar` — both together, for one datum, exactly one datum and
  any number of data.
-/

namespace MiniScheme

/-! ## The grammar -/

/-- The atom that a token is by itself. -/
def TokenKind.atom? : TokenKind → Option Atom
  | symbol name => some (.symbol name)
  | number x => some (.number x)
  | boolean b => some (.boolean b)
  | string s => some (.string s)
  | _ => none

mutual

/-- The tokens spell this datum. -/
inductive Derives : List Token → Datum → Prop
  | atom {t : Token} {a : Atom} (hAtom : t.kind.atom? = some a) : Derives [t] (.atom a)
  | marked {t : Token} {m : Mark} {ts : List Token} {d : Datum} (hMark : t.kind = .mark m)
      (h : Derives ts d) : Derives (t :: ts) (.ofList [.symbol m.symbolName, d] .nil)
  | list {opening closing : Token} {ts : List Token} {ds : List Datum}
      (hOpen : opening.kind = .leftParen) (h : DerivesAll ts ds)
      (hClose : closing.kind = .rightParen) :
      Derives (opening :: (ts ++ [closing])) (.ofList ds .nil)
  | dotted {opening dot closing : Token} {ts us : List Token} {ds : List Datum} {tail : Datum}
      (hOpen : opening.kind = .leftParen) (h : DerivesAll ts ds) (hSome : ds ≠ [])
      (hDot : dot.kind = .dot) (hTail : Derives us tail) (hClose : closing.kind = .rightParen) :
      Derives (opening :: (ts ++ dot :: (us ++ [closing]))) (.ofList ds tail)

/-- The tokens spell these data, one after the other. -/
inductive DerivesAll : List Token → List Datum → Prop
  | nil : DerivesAll [] []
  | cons {ts us : List Token} {d : Datum} {ds : List Datum} (h : Derives ts d)
      (hs : DerivesAll us ds) : DerivesAll (ts ++ us) (d :: ds)

end

theorem Derives.ne_nil {ts : List Token} {d : Datum} (h : Derives ts d) : ts ≠ [] := by
  cases h <;> exact List.cons_ne_nil _ _

/-- Data after data are data. -/
theorem DerivesAll.append {ts us : List Token} {ds es : List Datum} (h : DerivesAll ts ds)
    (h' : DerivesAll us es) : DerivesAll (ts ++ us) (ds ++ es) := by
  induction ds generalizing ts with
  | nil =>
    cases h
    exact h'
  | cons d ds ih =>
    cases h with
    | cons hd hs =>
      rw [List.append_assoc]
      exact .cons hd (ih hs)

theorem Derives.single {ts : List Token} {d : Datum} (h : Derives ts d) : DerivesAll ts [d] := by
  have := DerivesAll.cons h .nil
  rwa [List.append_nil] at this

/-! ## The reader, token by token -/

/-- Reads on after a token. -/
def Progress.resume : Progress → List Token → Except ParseError Datum × List Token
  | finished d, rest => (.ok d, rest)
  | within stack, rest => readWithin stack rest

/-- A token that is taken leads on from the progress that it makes. -/
theorem readWithin_cons {stack : List Construct} {t : Token} {p : Progress}
    (h : Construct.take stack t = .ok p) (rest : List Token) :
    readWithin stack (t :: rest) = p.resume rest := by
  rw [readWithin, h]
  cases p <;> rfl

namespace Construct

/-- A datum may come next: the innermost construct does not wait for its closing
parenthesis only. -/
def Awaits : List Construct → Prop
  | closing _ _ :: _ => False
  | _ => True

theorem awaits_nil : Awaits [] := trivial

theorem awaits_marked {m : Mark} {outer : List Construct} : Awaits (.marked m :: outer) := trivial

theorem awaits_list {opening : Span} {items : List Datum} {outer : List Construct} :
    Awaits (.list opening items :: outer) := trivial

theorem awaits_dotted {items : List Datum} {outer : List Construct} :
    Awaits (.dotted items :: outer) := trivial

/-- A parenthesis that closes and a dot belong to the innermost construct; every
other token begins a datum. -/
theorem take_eq_begin {stack : List Construct} {t : Token} (hAwaits : Awaits stack)
    (hClose : t.kind ≠ .rightParen) (hDot : t.kind ≠ .dot) : take stack t = begin stack t := by
  match stack with
  | [] | .marked _ :: _ | .dotted _ :: _ => rfl
  | .closing _ _ :: _ => exact hAwaits.elim
  | .list opening items :: outer =>
    simp only [take]
    split
    · contradiction
    · contradiction
    · rfl

/-- An atom is a datum, given to the construct that awaits it. -/
theorem take_atom {stack : List Construct} {t : Token} {a : Atom} (hAwaits : Awaits stack)
    (hAtom : t.kind.atom? = some a) : take stack t = .ok (give stack (.atom a)) := by
  have hClose : t.kind ≠ .rightParen := by
    intro h
    rw [h] at hAtom
    cases hAtom
  have hDot : t.kind ≠ .dot := by
    intro h
    rw [h] at hAtom
    cases hAtom
  rw [take_eq_begin hAwaits hClose hDot, begin]
  cases hKind : t.kind <;> rw [hKind] at hAtom <;> cases hAtom <;> rfl

/-- A mark opens a construct of its own. -/
theorem take_mark {stack : List Construct} {t : Token} {m : Mark} (hAwaits : Awaits stack)
    (hMark : t.kind = .mark m) : take stack t = .ok (.within (.marked m :: stack)) := by
  rw [take_eq_begin hAwaits (by simp [hMark]) (by simp [hMark]), begin, hMark]

/-- An opening parenthesis opens a list without items. -/
theorem take_open {stack : List Construct} {t : Token} (hAwaits : Awaits stack)
    (hOpen : t.kind = .leftParen) : take stack t = .ok (.within (.list t.span [] :: stack)) := by
  rw [take_eq_begin hAwaits (by simp [hOpen]) (by simp [hOpen]), begin, hOpen]

/-- A closing parenthesis gives the list to the construct around it. -/
theorem take_close_list {opening : Span} {items : List Datum} {outer : List Construct} {t : Token}
    (hClose : t.kind = .rightParen) :
    take (.list opening items :: outer) t = .ok (give outer (.ofList items.reverse .nil)) := by
  simp only [take, hClose]

/-- A dot after some item awaits the tail. -/
theorem take_dot {opening : Span} {items : List Datum} {outer : List Construct} {t : Token}
    (hSome : items ≠ []) (hDot : t.kind = .dot) :
    take (.list opening items :: outer) t = .ok (.within (.dotted items :: outer)) := by
  cases items with
  | nil => contradiction
  | cons item items => simp only [take, hDot]

/-- After the tail, a closing parenthesis gives the dotted list to the construct around it. -/
theorem take_close_dotted {items : List Datum} {tail : Datum} {outer : List Construct} {t : Token}
    (hClose : t.kind = .rightParen) :
    take (.closing items tail :: outer) t = .ok (give outer (.ofList items.reverse tail)) := by
  simp only [take, hClose]

end Construct

/-! ## The reader takes what the grammar derives -/

open Construct in
mutual

/-- A row that spells a datum is read, and the datum goes to the innermost
construct. -/
theorem Derives.read {ts : List Token} {d : Datum} (h : Derives ts d) {stack : List Construct}
    (hAwaits : Awaits stack) (rest : List Token) :
    readWithin stack (ts ++ rest) = (give stack d).resume rest := by
  -- The recursion follows the derivation: the tokens before the first part push a construct
  -- that awaits it, and the last token takes that construct away again.
  match ts, d, h with
  | _, _, .atom hAtom => exact readWithin_cons (take_atom hAwaits hAtom) rest
  | _, _, .marked hMark h =>
    rw [List.cons_append, readWithin_cons (take_mark hAwaits hMark)]
    exact h.read awaits_marked rest
  | _, _, .list hOpen h hClose =>
    rw [List.cons_append, readWithin_cons (take_open hAwaits hOpen), List.append_assoc]
    rw [Progress.resume, h.read, List.singleton_append, readWithin_cons (take_close_list hClose)]
    -- the stack holds the items last one first
    simp
  | _, _, .dotted hOpen h hSome hDot hTail hClose =>
    rw [List.cons_append, readWithin_cons (take_open hAwaits hOpen), List.append_assoc]
    rw [Progress.resume, h.read, List.cons_append, readWithin_cons (take_dot (by simpa) hDot)]
    rw [Progress.resume, List.append_assoc, hTail.read awaits_dotted, give]
    rw [Progress.resume, List.singleton_append, readWithin_cons (take_close_dotted hClose)]
    simp

/-- A row that spells some data adds them to the innermost list. -/
theorem DerivesAll.read {ts : List Token} {ds : List Datum} (h : DerivesAll ts ds) {opening : Span}
    {items : List Datum} {outer : List Construct} (rest : List Token) :
    readWithin (.list opening items :: outer) (ts ++ rest) =
      readWithin (.list opening (ds.reverse ++ items) :: outer) rest := by
  match ts, ds, h with
  | _, _, .nil => rfl
  | _, _, .cons h hs =>
    rw [List.append_assoc, h.read awaits_list, give, Progress.resume, hs.read]
    simp

end

/-! ## What the reader takes is derived -/

namespace Construct

/-- The tokens open exactly these constructs, and a datum may come next. -/
inductive Opened : List Construct → List Token → Prop
  | outermost : Opened [] []
  | marked {outer : List Construct} {ts : List Token} {t : Token} {m : Mark}
      (h : Opened outer ts) (hMark : t.kind = .mark m) : Opened (.marked m :: outer) (ts ++ [t])
  | list {outer : List Construct} {ts us : List Token} {t : Token} {items : List Datum}
      (h : Opened outer ts) (hOpen : t.kind = .leftParen) (hItems : DerivesAll us items.reverse) :
      Opened (.list t.span items :: outer) (ts ++ t :: us)
  | dotted {outer : List Construct} {ts us : List Token} {t dot : Token} {items : List Datum}
      (h : Opened outer ts) (hOpen : t.kind = .leftParen) (hItems : DerivesAll us items.reverse)
      (hSome : items ≠ []) (hDot : dot.kind = .dot) :
      Opened (.dotted items :: outer) (ts ++ t :: (us ++ [dot]))

/-- The tokens lead to this stack. Only the innermost construct can wait for
nothing but its closing parenthesis. -/
inductive Reached : List Construct → List Token → Prop
  | opened {stack : List Construct} {ts : List Token} (h : Opened stack ts) : Reached stack ts
  | closing {outer : List Construct} {ts us vs : List Token} {t dot : Token} {items : List Datum}
      {tail : Datum} (h : Opened outer ts) (hOpen : t.kind = .leftParen)
      (hItems : DerivesAll us items.reverse) (hSome : items ≠ []) (hDot : dot.kind = .dot)
      (hTail : Derives vs tail) :
      Reached (.closing items tail :: outer) (ts ++ t :: (us ++ dot :: vs))

end Construct

/-- What the tokens so far must be for this progress. -/
def Progress.Reached (p : Progress) (ts : List Token) : Prop :=
  match p with
  | finished d => Derives ts d
  | within stack => Construct.Reached stack ts

namespace Construct

/-- A datum that is given keeps the stack in step with the tokens that spell it. -/
theorem Opened.give {stack : List Construct} {ts : List Token} (h : Opened stack ts)
    {us : List Token} {d : Datum} (hd : Derives us d) :
    (Construct.give stack d).Reached (ts ++ us) := by
  -- Marks are finished together with their datum, so giving goes on outwards past them and stops
  -- at the first list.
  induction h generalizing us d with
  | outermost => exact hd
  | marked h hMark ih =>
    rw [List.append_assoc]
    exact ih (.marked hMark hd)
  | @list outer ts vs t items h hOpen hItems ih =>
    rw [List.append_assoc, List.cons_append]
    refine .opened (.list h hOpen ?_)
    rw [List.reverse_cons]
    exact hItems.append hd.single
  | dotted h hOpen hItems hSome hDot ih =>
    rw [List.append_assoc, List.cons_append, List.append_assoc, List.singleton_append]
    exact .closing h hOpen hItems hSome hDot hd

/-- A token that begins a datum keeps the stack in step, too. -/
theorem Opened.begin {stack : List Construct} {ts : List Token} (h : Opened stack ts) {t : Token}
    {p : Progress} (hTake : Construct.begin stack t = .ok p) : p.Reached (ts ++ [t]) := by
  unfold Construct.begin at hTake
  split at hTake <;> cases hTake
  -- an opening parenthesis, a mark, and the four kinds of atoms; nothing else begins a datum
  case h_1 hOpen => exact .opened (.list h hOpen .nil)
  case h_2 m hMark => exact .opened (.marked h hMark)
  all_goals
    rename_i hKind
    exact h.give (.atom (by rw [hKind]; rfl))

/-- Each token keeps the stack in step with the tokens. -/
theorem Reached.take {stack : List Construct} {ts : List Token} (h : Reached stack ts) {t : Token}
    {p : Progress} (hTake : Construct.take stack t = .ok p) : p.Reached (ts ++ [t]) := by
  cases h with
  | opened h =>
    -- Only within a list does the token decide what happens; elsewhere it must begin a datum.
    cases h with
    | outermost => exact Opened.begin .outermost hTake
    | marked h hMark => exact Opened.begin (.marked h hMark) hTake
    | dotted h hOpen hItems hSome hDot =>
      exact Opened.begin (.dotted h hOpen hItems hSome hDot) hTake
    | @list outer ts us t' items h hOpen hItems =>
      simp only [Construct.take] at hTake
      split at hTake
      · cases hTake
        rename_i hClose
        rw [List.append_assoc, List.cons_append]
        exact h.give (.list hOpen hItems hClose)
      · cases hTake
        rename_i item items hDot
        rw [List.append_assoc, List.cons_append]
        exact .opened (.dotted h hOpen hItems (List.cons_ne_nil _ _) hDot)
      · exact Opened.begin (.list h hOpen hItems) hTake
  | closing h hOpen hItems hSome hDot hTail =>
    simp only [Construct.take] at hTake
    split at hTake
    · cases hTake
      rename_i hClose
      rw [List.append_assoc, List.cons_append, List.append_assoc, List.cons_append]
      exact h.give (.dotted hOpen hItems (by simpa) hDot hTail hClose)
    · cases hTake

/-- A datum that the reader finishes is spelt by the tokens read for it. -/
theorem Reached.read {stack : List Construct} {ts : List Token} (h : Reached stack ts)
    {us rest : List Token} {d : Datum} (hRead : readWithin stack us = (.ok d, rest)) :
    ∃ vs, us = vs ++ rest ∧ Derives (ts ++ vs) d := by
  -- Token by token: what has been read moves from `us` over to `ts`.
  induction us generalizing stack ts with
  | nil => simp [readWithin] at hRead
  | cons t us ih =>
    cases hTake : Construct.take stack t with
    | error e => simp [readWithin, hTake] at hRead
    | ok p =>
      rw [readWithin_cons hTake] at hRead
      have hReached := h.take hTake
      cases p with
      | finished e =>
        cases hRead
        exact ⟨[t], rfl, hReached⟩
      | within stack' =>
        obtain ⟨vs, hEq, hDerives⟩ := ih hReached hRead
        refine ⟨t :: vs, by rw [hEq, List.cons_append], ?_⟩
        rwa [List.append_assoc] at hDerives

end Construct

/-! ## One datum -/

/-- One datum is read exactly where some tokens at the front spell it. -/
theorem readDatum_eq_ok_iff {ts rest : List Token} {d : Datum} :
    readDatum ts = (.ok d, rest) ↔ ∃ us, ts = us ++ rest ∧ Derives us d := by
  constructor
  · intro h
    exact Construct.Reached.read (.opened .outermost) h
  · rintro ⟨us, rfl, h⟩
    exact h.read Construct.awaits_nil rest

/-- At most one row of tokens at the front spells a datum, and it spells one. -/
theorem Derives.front_unique {ts us rest rest' : List Token} {d e : Datum} (hd : Derives ts d)
    (he : Derives us e) (hEq : ts ++ rest = us ++ rest') : ts = us ∧ d = e := by
  -- Both are what the reader finds at the front of the same row.
  have hd' : readDatum (ts ++ rest) = (.ok d, rest) := readDatum_eq_ok_iff.mpr ⟨ts, rfl, hd⟩
  have he' : readDatum (ts ++ rest) = (.ok e, rest') := readDatum_eq_ok_iff.mpr ⟨us, hEq, he⟩
  rw [hd'] at he'
  simp only [Prod.mk.injEq, Except.ok.injEq] at he'
  obtain ⟨rfl, rfl⟩ := he'
  exact ⟨List.append_cancel_right hEq, rfl⟩

/-- Reading never leaves more tokens than there were, and takes at least one. -/
theorem readWithin_length_lt (stack : List Construct) (t : Token) (ts : List Token) :
    (readWithin stack (t :: ts)).2.length < (t :: ts).length := by
  induction ts generalizing stack t with
  | nil =>
    rw [readWithin]
    split
    · exact Nat.zero_lt_one
    · exact Nat.zero_lt_one
    · exact Nat.zero_lt_one
  | cons u us ih =>
    rw [readWithin]
    split
    · exact Nat.lt_succ_self _
    · exact Nat.lt_succ_self _
    · exact Nat.lt_succ_of_lt (ih _ u)

/-- Reading a datum uses up at least one token, also when it fails. -/
theorem readDatum_length_lt (t : Token) (ts : List Token) :
    (readDatum (t :: ts)).2.length < (t :: ts).length :=
  readWithin_length_lt [] t ts

/-- One datum is read from the tokens that spell it, and from no others. -/
theorem parseOne_eq_ok_iff {ts : List Token} {d : Datum} :
    parseOne ts = .ok d ↔ Derives ts d := by
  -- No token may be left, so the datum at the front is spelt by all of them.
  have hAll : readDatum ts = (.ok d, []) ↔ Derives ts d := by
    rw [readDatum_eq_ok_iff]
    simp
  rw [← hAll, parseOne]
  cases hRead : readDatum ts with
  | mk result rest =>
    cases result with
    | error e => simp
    | ok e => cases rest <;> simp

/-! ## Any number of data -/

namespace Construct

/-- A datum that finishes nothing leaves a construct open. -/
theorem give_ne_within_nil (stack : List Construct) (d : Datum) : give stack d ≠ .within [] := by
  induction stack generalizing d with
  | nil => exact Progress.noConfusion
  | cons c outer ih =>
    cases c with
    | marked m => exact ih _
    | _ => simp [give]

/-- A token that begins something finishes a datum or leaves a construct open. -/
theorem begin_ne_within_nil (stack : List Construct) (t : Token) :
    begin stack t ≠ .ok (.within []) := by
  unfold begin
  split <;> simp [give_ne_within_nil]

/-- A token that is taken finishes a datum or leaves a construct open. -/
theorem take_ne_within_nil (stack : List Construct) (t : Token) :
    take stack t ≠ .ok (.within []) := by
  unfold take
  split
  · split
    · simp [give_ne_within_nil]
    · simp
    · exact begin_ne_within_nil _ t
  · split
    · simp [give_ne_within_nil]
    · simp
  · exact begin_ne_within_nil _ t

end Construct

/-- Reading to the end is reading on to the end of the open datum, and then the
others. -/
theorem readAllWithin_eq {stack : List Construct} {ts : List Token} (read : List Datum)
    (h : stack ≠ [] ∨ ts ≠ []) :
    readAllWithin read stack ts =
      match readWithin stack ts with
      | (.error e, _) => .error e
      | (.ok d, rest) => readAllWithin (d :: read) [] rest := by
  induction ts generalizing stack with
  | nil =>
    cases stack with
    | nil => simp at h
    | cons c outer => rfl
  | cons t ts ih =>
    rw [readAllWithin, readWithin]
    cases hTake : Construct.take stack t with
    | error e => rfl
    | ok p =>
      cases p with
      | finished d => rfl
      | within stack' =>
        -- The two readers would part where a datum is within no construct.
        refine ih (.inl ?_)
        rintro rfl
        exact Construct.take_ne_within_nil stack t hTake

/-- The data read before only come before the others. -/
theorem readAllWithin_nil (read : List Datum) (ts : List Token) :
    readAllWithin read [] ts = (parseAll ts).map (read.reverse ++ ·) := by
  -- A datum may use up any number of tokens, so the induction is on how many are left.
  induction hLength : ts.length using Nat.strongRecOn generalizing read ts with
  | ind n ih =>
    cases ts with
    | nil => simp [readAllWithin, parseAll, Except.map]
    | cons t ts =>
      have hSome : ([] : List Construct) ≠ [] ∨ t :: ts ≠ [] := .inr (List.cons_ne_nil t ts)
      rw [parseAll, readAllWithin_eq read hSome, readAllWithin_eq [] hSome]
      have hShorter := readWithin_length_lt [] t ts
      cases hRead : readWithin [] (t :: ts) with
      | mk result rest =>
        rw [hRead] at hShorter
        cases result with
        | error e => rfl
        | ok d =>
          have hRest : ∀ read,
              readAllWithin read [] rest = (parseAll rest).map (read.reverse ++ ·) :=
            fun read => ih rest.length (hLength ▸ hShorter) read rest rfl
          simp only [hRest]
          cases parseAll rest <;> simp [Except.map]

/-- Data are read one at a time, until no token is left. -/
theorem parseAll_cons (t : Token) (ts : List Token) :
    parseAll (t :: ts) =
      match readDatum (t :: ts) with
      | (.error e, _) => .error e
      | (.ok d, rest) => (parseAll rest).map (d :: ·) := by
  rw [parseAll, readAllWithin_eq [] (.inr (List.cons_ne_nil t ts)), readDatum]
  cases readWithin [] (t :: ts) with
  | mk result rest =>
    cases result with
    | error e => rfl
    | ok d => exact readAllWithin_nil [d] rest

/-- Whatever spells data is read as these data. -/
theorem parseAll_of_derivesAll {ts : List Token} {ds : List Datum} (h : DerivesAll ts ds) :
    parseAll ts = .ok ds := by
  induction ds generalizing ts with
  | nil =>
    cases h
    rfl
  | cons d ds ih =>
    cases h with
    | @cons us vs _ _ hd hs =>
      -- `parseAll` looks at the row before it reads, so a first token is needed.
      obtain ⟨t, us, rfl⟩ := List.exists_cons_of_ne_nil hd.ne_nil
      have hRead : readDatum (t :: us ++ vs) = (.ok d, vs) :=
        readDatum_eq_ok_iff.mpr ⟨t :: us, rfl, hd⟩
      rw [List.cons_append] at hRead ⊢
      rw [parseAll_cons, hRead]
      simp only [ih hs, Except.map]

/-- What is read as data spells them. -/
theorem derivesAll_of_parseAll {ts : List Token} {ds : List Datum} (h : parseAll ts = .ok ds) :
    DerivesAll ts ds := by
  -- A datum may use up any number of tokens, so the induction is on how many are left.
  induction hLength : ts.length using Nat.strongRecOn generalizing ts ds with
  | ind n ih =>
    cases ts with
    | nil =>
      cases h
      exact .nil
    | cons t ts =>
      rw [parseAll_cons] at h
      have hShorter := readDatum_length_lt t ts
      cases hRead : readDatum (t :: ts) with
      | mk result rest =>
        rw [hRead] at h hShorter
        cases result with
        | error e => cases h
        | ok d =>
          obtain ⟨us, hEq, hd⟩ := readDatum_eq_ok_iff.mp hRead
          cases hRest : parseAll rest with
          | error e => simp [hRest, Except.map] at h
          | ok es =>
            simp only [hRest, Except.map, Except.ok.injEq] at h
            rw [hEq, ← h]
            exact .cons hd (ih rest.length (hLength ▸ hShorter) hRest rfl)

/-- Data are read from the tokens that spell them, and from no others. -/
theorem parseAll_eq_ok_iff {ts : List Token} {ds : List Datum} :
    parseAll ts = .ok ds ↔ DerivesAll ts ds :=
  ⟨derivesAll_of_parseAll, parseAll_of_derivesAll⟩

/-- A program that is read is made of tokens. -/
theorem parseProgram_eq_ok {text : String} {ds : List Datum} (h : parseProgram text = .ok ds) :
    ∃ tokens, tokenize text = .ok tokens ∧ parseAll tokens = .ok ds := by
  unfold parseProgram scanText at h
  cases hTokens : tokenize text with
  | ok tokens =>
    rw [hTokens] at h
    exact ⟨tokens, rfl, h⟩
  | error e =>
    rw [hTokens] at h
    cases h

/-! ## The reader and its grammar -/

/-- The reader accepts exactly its grammar. One datum is read off the front
where the tokens there spell it, and no other row of tokens at the front spells
any; a whole row is one datum, or any number of data in order, where it is spelt
so. No call stands still, so that reading to the end comes to an end. -/
theorem reader_accepts_grammar :
    (∀ ts d rest, readDatum ts = (.ok d, rest) ↔ ∃ us, ts = us ++ rest ∧ Derives us d) ∧
      (∀ ts us rest rest' d e, Derives ts d → Derives us e → ts ++ rest = us ++ rest' →
        ts = us ∧ d = e) ∧
      (∀ ts d, parseOne ts = .ok d ↔ Derives ts d) ∧
      (∀ ts ds, parseAll ts = .ok ds ↔ DerivesAll ts ds) ∧
      (∀ t ts, (readDatum (t :: ts)).2.length < (t :: ts).length) ∧
      (∀ t ts, parseAll (t :: ts) =
        match readDatum (t :: ts) with
        | (.error e, _) => .error e
        | (.ok d, rest) => (parseAll rest).map (d :: ·)) := by
  refine ⟨fun ts d rest => readDatum_eq_ok_iff, ?_, fun ts d => parseOne_eq_ok_iff,
    fun ts ds => parseAll_eq_ok_iff, readDatum_length_lt, parseAll_cons⟩
  intro ts us rest rest' d e hd he hEq
  exact hd.front_unique he hEq

/-- At the front of `'a b` stands only `'a`. -/
theorem reader_accepts_quoted :
    let tokens : List Token := [⟨.mark .quote, 0, 1⟩, ⟨.symbol "a", 1, 2⟩]
    let others : List Token := [⟨.symbol "b", 3, 4⟩]
    let spelt : Datum := .ofList [.symbol "quote", .symbol "a"] .nil
    Derives tokens spelt ∧ parseOne tokens = .ok spelt ∧
      ∀ us rest d, Derives us d → tokens ++ others = us ++ rest → us = tokens ∧ d = spelt := by
  have hSpelt : Derives [⟨.mark .quote, 0, 1⟩, ⟨.symbol "a", 1, 2⟩]
      (.ofList [.symbol Mark.quote.symbolName, .atom (.symbol "a")] .nil) := .marked rfl (.atom rfl)
  refine ⟨hSpelt, (reader_accepts_grammar.2.2.1 _ _).mpr hSpelt, ?_⟩
  intro us rest d h hEq
  exact reader_accepts_grammar.2.1 us _ rest _ d _ h hSpelt hEq.symm

end MiniScheme
