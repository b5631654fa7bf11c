import FilterQuery.Proofs.ScanSteps

/-!
# Text whose delimiters pair up

The count that looks for a closing delimiter sees three kinds of pairs: quotes,
with anything between them; braces, between which quotes and braces count; and
parentheses, between which all of them do.  It passes over text made of such
pairs and of other characters, and what it finds between a delimiter and the one
that closes it is such text.  A brace that closes nothing is a character like
any other, except between braces.
-/

namespace FilterQuery

/-- Quotes and braces pair up. -/
inductive IsBraced : List Char → Prop where
  | nil : IsBraced []
  | plain {c : Char} {cs : List Char} (hc : c ≠ '"' ∧ c ≠ '\x7b' ∧ c ≠ '\x7d') (h : IsBraced cs) :
      IsBraced (c :: cs)
  | quoted {text cs : List Char} (htext : '"' ∉ text) (h : IsBraced cs) :
      IsBraced ('"' :: (text ++ '"' :: cs))
  | braced {inside cs : List Char} (hinside : IsBraced inside) (h : IsBraced cs) :
      IsBraced ('\x7b' :: (inside ++ '\x7d' :: cs))

/-- Quotes, braces and parentheses pair up. -/
inductive IsPaired : List Char → Prop where
  | nil : IsPaired []
  | plain {c : Char} {cs : List Char} (hc : c ≠ '"' ∧ c ≠ '\x7b' ∧ c ≠ '(' ∧ c ≠ ')')
      (h : IsPaired cs) : IsPaired (c :: cs)
  | quoted {text cs : List Char} (htext : '"' ∉ text) (h : IsPaired cs) :
      IsPaired ('"' :: (text ++ '"' :: cs))
  | braced {inside cs : List Char} (hinside : IsBraced inside) (h : IsPaired cs) :
      IsPaired ('\x7b' :: (inside ++ '\x7d' :: cs))
  | group {inside cs : List Char} (hinside : IsPaired inside) (h : IsPaired cs) :
      IsPaired ('(' :: (inside ++ ')' :: cs))

namespace IsPaired

/-- Texts that pair up do so one after the other. -/
theorem append {as bs : List Char} (ha : IsPaired as) (hb : IsPaired bs) : IsPaired (as ++ bs) := by
  induction ha with
  | nil => exact hb
  | plain hc _ ih => exact .plain hc ih
  | quoted htext _ ih =>
      rw [List.cons_append, List.append_assoc]
      exact .quoted htext ih
  | braced hinside _ ih =>
      rw [List.cons_append, List.append_assoc]
      exact .braced hinside ih
  | group hinside _ _ ih =>
      rw [List.cons_append, List.append_assoc]
      exact .group hinside ih

/-- Text without delimiters that open is paired, if no parenthesis closes in it
either. -/
theorem of_plain {cs : List Char} (h : ∀ c ∈ cs, c ≠ '"' ∧ c ≠ '\x7b' ∧ c ≠ '(' ∧ c ≠ ')') :
    IsPaired cs := by
  induction cs with
  | nil => exact .nil
  | cons c cs ih =>
      exact .plain (h c List.mem_cons_self) (ih fun d hd => h d (List.mem_cons_of_mem c hd))

end IsPaired

/-- The count takes the characters until nothing is open any more: none if
nothing is open. -/
inductive ClosesOn (depth : Depth) : List Char → List Char → Prop where
  | done (hclosed : depth = {}) (rest : List Char) : ClosesOn depth [] rest
  | next {taken rest : List Char} (hopen : depth ≠ {})
      (h : Closes depth false (taken ++ rest) taken rest) : ClosesOn depth taken rest

/-- Within quotes the count goes on behind the next one. -/
theorem Closes.exists_quote {depth : Depth} {cs taken rest : List Char}
    (h : Closes depth true cs taken rest) :
    ∃ text more, taken = text ++ '"' :: more ∧ '"' ∉ text ∧
      Closes depth false (more ++ rest) more rest := by
  induction cs generalizing taken with
  | nil => cases h
  | cons c cs ih =>
      cases h with
      | @quoted _ _ _ more _ h =>
          by_cases hc : c = '"'
          · obtain ⟨rfl, -⟩ := h.eq_append
            rw [decide_eq_false (by simpa using hc)] at h
            exact ⟨[], more, by rw [hc]; rfl, nofun, h⟩
          · rw [decide_eq_true hc] at h
            obtain ⟨text, more, rfl, htext, h⟩ := ih h
            refine ⟨c :: text, more, rfl, ?_, h⟩
            rw [List.mem_cons, not_or]
            exact ⟨Ne.symm hc, htext⟩

/-- A quote that is closed goes on outside of it. -/
theorem Closes.of_quote {depth : Depth} {text taken rest : List Char} (htext : '"' ∉ text)
    (h : Closes depth false (taken ++ rest) taken rest) :
    Closes depth true (text ++ '"' :: taken ++ rest) (text ++ '"' :: taken) rest := by
  induction text with
  | nil => exact .quoted (by simpa using h)
  | cons c text ih =>
      rw [List.mem_cons, not_or] at htext
      refine .quoted ?_
      rw [decide_eq_true (Ne.symm htext.1)]
      exact ih htext.2

namespace ClosesOn

variable {depth : Depth} {c : Char} {taken rest : List Char}

/-- If nothing is open nothing is taken. -/
theorem eq_nil (h : ClosesOn {} taken rest) : taken = [] := by
  cases h with
  | done => rfl
  | next hopen _ => exact absurd rfl hopen

/-- One character that is not quoted. -/
theorem cons_iff (hopen : depth ≠ {}) (hc : c ≠ '"') :
    ClosesOn depth (c :: taken) rest ↔ ClosesOn (depth.step c) taken rest := by
  constructor
  · intro h
    cases h with
    | next _ h =>
        cases h with
        | quote => exact absurd rfl hc
        | next _ hopen h => exact .next hopen h
        | last _ hclosed _ => exact .done hclosed rest
  · intro h
    cases h with
    | done hclosed => exact .next hopen (.last hc hclosed rest)
    | next hnext h => exact .next hopen (.next hc hnext h)

/-- The count passes over quoted text. -/
theorem exists_quote (h : ClosesOn depth ('"' :: taken) rest) :
    ∃ text more, taken = text ++ '"' :: more ∧ '"' ∉ text ∧ ClosesOn depth more rest := by
  cases h with
  | next hopen h =>
      cases h with
      | quote _ h =>
          obtain ⟨text, more, rfl, htext, h⟩ := h.exists_quote
          exact ⟨text, more, rfl, htext, .next hopen h⟩
      | next hc => exact absurd rfl hc
      | last hc => exact absurd rfl hc

/-- Quoted text is taken on the way to what closes. -/
theorem of_quote {text : List Char} (hopen : depth ≠ {}) (htext : '"' ∉ text)
    (h : ClosesOn depth taken rest) : ClosesOn depth ('"' :: (text ++ '"' :: taken)) rest := by
  cases h with
  | done hclosed => exact absurd hclosed hopen
  | next _ h => exact .next hopen (.quote (by simp) (h.of_quote htext))

end ClosesOn

/-- What a delimiter delimits is what the count takes behind it, but for the
last character. -/
theorem delimited?_iff_closesOn {position : Nat} {c : Char} {cs inside behind : List Char}
    (hc : c ≠ '"') (hopen : Depth.step {} c ≠ {}) :
    delimited? position (c :: cs) = .ok (some (inside, behind)) ↔
      ∃ taken, cs = taken ++ behind ∧ inside = taken.dropLast ∧
        ClosesOn (Depth.step {} c) taken behind := by
  rw [delimited?_eq_found]
  constructor
  · rintro ⟨taken, htaken, rfl⟩
    cases htaken with
    | quote => exact absurd rfl hc
    | next _ _ h => exact ⟨_, h.eq_append.1, rfl, .next hopen (h.eq_append.1 ▸ h)⟩
    | last _ hclosed _ => exact absurd hclosed hopen
  · rintro ⟨taken, rfl, rfl, h⟩
    cases h with
    | done hclosed => exact absurd hclosed hopen
    | next _ h => exact ⟨c :: taken, .next hc hopen h, rfl⟩

namespace Depth

variable {parentheses braces : Nat}

/-- An opening brace opens one more. -/
theorem step_openBrace :
    Depth.step ⟨parentheses, braces⟩ '\x7b' = ⟨parentheses, braces + 1⟩ := by
  cases braces with
  | zero => rfl
  | succ braces => rfl

/-- Within braces only braces count. -/
theorem step_braced {c : Char} (hc : c ≠ '\x7b' ∧ c ≠ '\x7d') :
    Depth.step ⟨parentheses, braces + 1⟩ c = ⟨parentheses, braces + 1⟩ := by
  rw [Depth.step, if_pos (Nat.succ_pos _), if_neg hc.1, if_neg hc.2]

theorem step_open : Depth.step ⟨parentheses, 0⟩ '(' = ⟨parentheses + 1, 0⟩ := rfl

/-- Other characters open and close nothing. -/
theorem step_plain {c : Char} (hc : c ≠ '\x7b' ∧ c ≠ '(' ∧ c ≠ ')') :
    Depth.step ⟨parentheses, 0⟩ c = ⟨parentheses, 0⟩ := by
  rw [Depth.step, if_neg (Nat.not_lt_zero _), if_neg hc.1, if_neg hc.2.1, if_neg hc.2.2]

theorem ne_closed_of_braces : (⟨parentheses, braces + 1⟩ : Depth) ≠ {} := by simp

theorem ne_closed_of_parentheses : (⟨parentheses + 1, braces⟩ : Depth) ≠ {} := by simp

end Depth

open Depth

/-- Text in which braces pair up is taken on the way to the brace that
closes. -/
theorem IsBraced.closesOn {parentheses braces : Nat} {cs taken rest : List Char} (h : IsBraced cs)
    (hclose : ClosesOn ⟨parentheses, braces + 1⟩ taken rest) :
    ClosesOn ⟨parentheses, braces + 1⟩ (cs ++ taken) rest := by
  induction h generalizing braces taken with
  | nil => exact hclose
  | plain hc _ ih =>
      refine (ClosesOn.cons_iff ne_closed_of_braces hc.1).mpr ?_
      rw [step_braced hc.2]
      exact ih hclose
  | quoted htext _ ih =>
      rw [List.cons_append, List.append_assoc]
      exact .of_quote ne_closed_of_braces htext (ih hclose)
  | braced _ _ ihinside ih =>
      rw [List.cons_append, List.append_assoc]
      refine (ClosesOn.cons_iff ne_closed_of_braces (by decide)).mpr ?_
      rw [step_openBrace]
      refine ihinside ((ClosesOn.cons_iff ne_closed_of_braces (by decide)).mpr ?_)
      exact ih hclose

/-- **Up to the brace that closes one, quotes and braces pair up.** -/
theorem ClosesOn.exists_braced {parentheses braces : Nat} {taken rest : List Char}
    (h : ClosesOn ⟨parentheses, braces + 1⟩ taken rest) :
    ∃ inside more, taken = inside ++ '\x7d' :: more ∧ IsBraced inside ∧
      ClosesOn ⟨parentheses, braces⟩ more rest := by
  -- The parts between two delimiters are shorter than the whole.
  induction hlength : taken.length using Nat.strongRecOn generalizing braces taken with
  | _ n ih =>
      subst hlength
      cases taken with
      | nil =>
          cases h with
          | done hclosed => exact absurd hclosed ne_closed_of_braces
          | next _ h => exact absurd rfl h.eq_append.2
      | cons c taken =>
          by_cases hquote : c = '"'
          · subst hquote
            obtain ⟨text, more, rfl, htext, h⟩ := h.exists_quote
            obtain ⟨inside, more, rfl, hinside, h⟩ := ih _ (by simp; omega) h rfl
            exact ⟨'"' :: (text ++ '"' :: inside), more, by simp, .quoted htext hinside, h⟩
          have hstep := (cons_iff ne_closed_of_braces hquote).mp h
          by_cases hopen : c = '\x7b'
          · subst hopen
            rw [step_openBrace] at hstep
            obtain ⟨inside, more, rfl, hinside, h⟩ := ih _ (by simp) hstep rfl
            obtain ⟨inside', more, rfl, hinside', h⟩ := ih _ (by simp; omega) h rfl
            exact ⟨'\x7b' :: (inside ++ '\x7d' :: inside'), more, by simp,
              .braced hinside hinside', h⟩
          by_cases hclose : c = '\x7d'
          · subst hclose
            exact ⟨[], taken, rfl, .nil, hstep⟩
          · rw [step_braced ⟨hopen, hclose⟩] at hstep
            obtain ⟨inside, more, rfl, hinside, h⟩ := ih _ (by simp) hstep rfl
            exact ⟨c :: inside, more, rfl, .plain ⟨hquote, hopen, hclose⟩ hinside, h⟩

/-- **A brace delimits text in which quotes and braces pair up.** -/
theorem delimited?_brace_iff {position : Nat} {cs inside behind : List Char} :
    delimited? position ('\x7b' :: cs) = .ok (some (inside, behind)) ↔
      cs = inside ++ '\x7d' :: behind ∧ IsBraced inside := by
  rw [delimited?_iff_closesOn (by decide) (by decide), step_openBrace]
  constructor
  · rintro ⟨taken, rfl, rfl, h⟩
    obtain ⟨inside, more, rfl, hinside, h⟩ := h.exists_braced
    obtain rfl := h.eq_nil
    simpa using hinside
  · rintro ⟨rfl, hinside⟩
    have hbrace : ClosesOn ⟨0, 0 + 1⟩ ['\x7d'] behind :=
      (ClosesOn.cons_iff ne_closed_of_braces (by decide)).mpr (.done rfl behind)
    exact ⟨inside ++ ['\x7d'], by simp, by simp, hinside.closesOn hbrace⟩

/-- Text that pairs up is taken on the way to the parenthesis that closes. -/
theorem IsPaired.closesOn {parentheses : Nat} {cs taken rest : List Char} (h : IsPaired cs)
    (hclose : ClosesOn ⟨parentheses + 1, 0⟩ taken rest) :
    ClosesOn ⟨parentheses + 1, 0⟩ (cs ++ taken) rest := by
  induction h generalizing parentheses taken with
  | nil => exact hclose
  | plain hc _ ih =>
      refine (ClosesOn.cons_iff ne_closed_of_parentheses hc.1).mpr ?_
      rw [step_plain hc.2]
      exact ih hclose
  | quoted htext _ ih =>
      rw [List.cons_append, List.append_assoc]
      exact .of_quote ne_closed_of_parentheses htext (ih hclose)
  | braced hinside _ ih =>
      rw [List.cons_append, List.append_assoc]
      refine (ClosesOn.cons_iff ne_closed_of_parentheses (by decide)).mpr ?_
      rw [step_openBrace]
      exact hinside.closesOn
        ((ClosesOn.cons_iff ne_closed_of_braces (by decide)).mpr (ih hclose))
  | group _ _ ihinside ih =>
      rw [List.cons_append, List.append_assoc]
      refine (ClosesOn.cons_iff ne_closed_of_parentheses (by decide)).mpr ?_
      rw [step_open]
      exact ihinside
        ((ClosesOn.cons_iff ne_closed_of_parentheses (by decide)).mpr (ih hclose))

/-- **Up to the parenthesis that closes one, quotes, braces and parentheses pair
up.** -/
theorem ClosesOn.exists_paired {parentheses : Nat} {taken rest : List Char}
    (h : ClosesOn ⟨parentheses + 1, 0⟩ taken rest) :
    ∃ inside more, taken = inside ++ ')' :: more ∧ IsPaired inside ∧
      ClosesOn ⟨parentheses, 0⟩ more rest := by
  induction hlength : taken.length using Nat.strongRecOn generalizing parentheses taken with
  | _ n ih =>
      subst hlength
      cases taken with
      | nil =>
          cases h with
          | done hclosed => exact absurd hclosed ne_closed_of_parentheses
          | next _ h => exact absurd rfl h.eq_append.2
      | cons c taken =>
          by_cases hquote : c = '"'
          · subst hquote
            obtain ⟨text, more, rfl, htext, h⟩ := h.exists_quote
            obtain ⟨inside, more, rfl, hinside, h⟩ := ih _ (by simp; omega) h rfl
            exact ⟨'"' :: (text ++ '"' :: inside), more, by simp, .quoted htext hinside, h⟩
          have hstep := (cons_iff ne_closed_of_parentheses hquote).mp h
          by_cases hbrace : c = '\x7b'
          · subst hbrace
            rw [step_openBrace] at hstep
            obtain ⟨braced, more, rfl, hbraced, h⟩ := hstep.exists_braced
            obtain ⟨inside, more, rfl, hinside, h⟩ := ih _ (by simp; omega) h rfl
            exact ⟨'\x7b' :: (braced ++ '\x7d' :: inside), more, by simp,
              .braced hbraced hinside, h⟩
          by_cases hopen : c = '('
          · subst hopen
            obtain ⟨inside, more, rfl, hinside, h⟩ := ih _ (by simp) hstep rfl
            obtain ⟨inside', more, rfl, hinside', h⟩ := ih _ (by simp; omega) h rfl
            exact ⟨'(' :: (inside ++ ')' :: inside'), more, by simp, .group hinside hinside', h⟩
          by_cases hclose : c = ')'
          · subst hclose
            exact ⟨[], taken, rfl, .nil, hstep⟩
          · rw [step_plain ⟨hbrace, hopen, hclose⟩] at hstep
            obtain ⟨inside, more, rfl, hinside, h⟩ := ih _ (by simp) hstep rfl
            exact ⟨c :: inside, more, rfl, .plain ⟨hquote, hbrace, hopen, hclose⟩ hinside, h⟩

/-- **A parenthesis delimits text in which quotes, braces and parentheses pair
up.** -/
theorem delimited?_parenthesis_iff {position : Nat} {cs inside behind : List Char} :
    delimited? position ('(' :: cs) = .ok (some (inside, behind)) ↔
      cs = inside ++ ')' :: behind ∧ IsPaired inside := by
  rw [delimited?_iff_closesOn (by decide) (by decide), step_open]
  constructor
  · rintro ⟨taken, rfl, rfl, h⟩
    obtain ⟨inside, more, rfl, hinside, h⟩ := h.exists_paired
    obtain rfl := h.eq_nil
    simpa using hinside
  · rintro ⟨rfl, hinside⟩
    have hparenthesis : ClosesOn ⟨0 + 1, 0⟩ [')'] behind :=
      (ClosesOn.cons_iff ne_closed_of_parentheses (by decide)).mpr (.done rfl behind)
    exact ⟨inside ++ [')'], by simp, by simp, hinside.closesOn hparenthesis⟩

end FilterQuery
