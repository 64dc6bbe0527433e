import Keyring.Proofs.Text.Decimal
import Keyring.Proofs.Text.Words
import Keyring.Text.Decimal

/-!
# The grammar of integer literals

An integer literal is a run of digits of any script with a sign in front of it, or none, and margins
around. In a run, single low lines may stand between digits (`Run`). No digit is a blank, so the
margins of a literal end where its sign or its first digit begins.
-/

namespace Keyring.Text.Decimal

/-! ### Grammar -/

/-- What goes on a run of digits: further digits, each with a low line in front of it or without. -/
inductive Digits : Text → List ℕ → Prop
  | nil : Digits [] []
  | digit {c d t ds} : digit? c = some d → Digits t ds → Digits (c :: t) (d :: ds)
  | line {c d t ds} : digit? c = some d → Digits t ds → Digits ('_' :: c :: t) (d :: ds)

/-- A run of digits of these values. -/
inductive Run : Text → List ℕ → Prop
  | first {c d t ds} : digit? c = some d → Digits t ds → Run (c :: t) (d :: ds)

/-- A sign and the factor that it stands for. -/
inductive Sign : Text → Int → Prop
  | none : Sign [] 1
  | plus : Sign ['+'] 1
  | minus : Sign ['-'] (-1)

/-- An integer literal with the digits `ds` and of the value `v`. -/
inductive Literal : Text → List ℕ → Int → Prop
  | surrounded {pre sign run post : Text} {s : Int} {ds : List ℕ} :
      (∀ c ∈ pre, isMargin c) → Sign sign s → Run run ds → (∀ c ∈ post, isMargin c) →
      Literal (pre ++ (sign ++ run) ++ post) ds (s * Radix.value 10 ds)

variable {c : Char} {d n : ℕ} {t : Text} {ds : List ℕ} {s v : Int}

/-! ### Characters -/

/-- The blanks beyond ASCII stand in no decimal script. -/
theorem digit?_of_isBlank (h : isBlank c) : digit? c = none := by
  have hascii : ('0' ≤ c ∧ c ≤ '9') ↔ 48 ≤ c.toNat ∧ c.toNat ≤ 57 := Iff.rfl
  unfold digit?
  simp only [hascii]
  unfold isBlank at h
  generalize c.toNat = n at h
  by_cases hn : n < 128
  · rw [if_pos hn] at h ⊢
    rw [if_neg]
    simp only [Bool.or_eq_true, Bool.and_eq_true, decide_eq_true_eq] at h
    omega
  · rw [if_neg hn] at h ⊢
    rw [if_neg (by omega)]
    simp only [Bool.or_eq_true, Bool.and_eq_true, decide_eq_true_eq] at h
    -- The scripts are listed by their zeros, so each of the few blanks is looked up.
    rcases h with (((((((rfl | rfl) | rfl) | ⟨hle, hge⟩) | rfl) | rfl) | rfl) | rfl) | rfl
    all_goals try rfl
    interval_cases n <;> rfl

theorem isMargin_of_digit? (h : digit? c = some d) : isMargin c = false := by
  cases hc : isBlank c with
  | false => rw [isMargin, hc, Bool.false_and]
  | true =>
    rw [digit?_of_isBlank hc] at h
    exact (nomatch h)

theorem digit?_low_line : digit? '_' = none := rfl

theorem ne_low_line (h : digit? c = some d) : c ≠ '_' := by
  rintro rfl
  exact absurd (digit?_low_line.symm.trans h) (by simp)

namespace Digits

theorem forall_mem (h : Digits t ds) : ∀ c ∈ t, c = '_' ∨ (digit? c).isSome := by
  induction h with
  | nil => simp
  | digit hd _ ih => exact List.forall_mem_cons.2 ⟨.inr (by rw [hd]; rfl), ih⟩
  | line hd _ ih =>
    exact List.forall_mem_cons.2 ⟨.inl rfl, List.forall_mem_cons.2 ⟨.inr (by rw [hd]; rfl), ih⟩⟩

/-- A low line is followed by a digit, so a digit is at the end. -/
theorem getLast?_cons (h : Digits t ds) (hc : (digit? c).isSome) :
    ∀ x ∈ (c :: t).getLast?, (digit? x).isSome := by
  induction h generalizing c with
  | nil => simpa using hc
  | digit hd _ ih =>
    rw [List.getLast?_cons_cons]
    exact ih (by rw [hd]; rfl)
  | line hd _ ih =>
    rw [List.getLast?_cons_cons, List.getLast?_cons_cons]
    exact ih (by rw [hd]; rfl)

theorem length_filter (h : Digits t ds) : (t.filter (· ≠ '_')).length = ds.length := by
  induction h with
  | nil => rfl
  | digit hd _ ih => simpa [ne_low_line hd] using ih
  | line hd _ ih => simpa [ne_low_line hd] using ih

/-- Only what stands in front of the first low line can be empty. -/
theorem splitOn_low_line (h : Digits t ds) : ∃ g gs, splitOn '_' t = g :: gs ∧ [] ∉ gs := by
  induction h with
  | nil => exact ⟨[], [], rfl, by simp⟩
  | digit hd _ ih =>
    obtain ⟨g, gs, hsplit, hgs⟩ := ih
    exact ⟨_ :: g, gs, by rw [splitOn, if_neg (ne_low_line hd), hsplit], hgs⟩
  | line hd _ ih =>
    obtain ⟨g, gs, hsplit, hgs⟩ := ih
    refine ⟨[], (_ :: g) :: gs,
      by rw [splitOn, if_pos rfl, splitOn, if_neg (ne_low_line hd), hsplit], ?_⟩
    simpa using hgs

end Digits

namespace Run

theorem forall_mem (h : Run t ds) : ∀ c ∈ t, c = '_' ∨ (digit? c).isSome := by
  obtain ⟨hd, h⟩ := h
  exact (Digits.digit hd h).forall_mem

theorem head? (h : Run t ds) : ∀ c ∈ t.head?, (digit? c).isSome := by
  obtain ⟨hd, -⟩ := h
  simp [hd]

theorem getLast?_append (h : Run t ds) (front : Text) :
    ∀ c ∈ (front ++ t).getLast?, (digit? c).isSome := by
  obtain ⟨hd, h⟩ := h
  rw [List.getLast?_append_of_ne_nil _ (List.cons_ne_nil _ _)]
  exact h.getLast?_cons (by rw [hd]; rfl)

end Run

/-! ### Reading -/

theorem digitsFrom_eq_some {m : ℕ} :
    digitsFrom n t = some m ↔ ∃ ds, Digits t ds ∧ ds.foldl (fun n d => n * 10 + d) n = m := by
  constructor
  · intro h
    -- Two cases take a digit off, with a low line in front of it or without; two others find none.
    fun_induction digitsFrom n t with
    | case1 n => exact ⟨[], .nil, Option.some.inj h⟩
    | case2 n c t d hd ih =>
      obtain ⟨ds, hds, hm⟩ := ih h
      exact ⟨d :: ds, .line hd hds, hm⟩
    | case3 n c t hd => exact (nomatch h)
    | case4 n c t _ d hd ih =>
      obtain ⟨ds, hds, hm⟩ := ih h
      exact ⟨d :: ds, .digit hd hds, hm⟩
    | case5 n c t _ hd => exact (nomatch h)
  · rintro ⟨ds, hds, rfl⟩
    induction hds generalizing n with
    | nil => rfl
    | digit hd _ ih =>
      rw [digitsFrom.eq_3 _ _ _ fun _ _ hc => absurd hc (ne_low_line hd), hd]
      exact ih
    | line hd _ ih =>
      rw [digitsFrom, hd]
      exact ih

/-- Runs of digits are read as the numbers that they spell. -/
theorem natural?_eq_some : natural? t = some n ↔ ∃ ds, Run t ds ∧ Radix.value 10 ds = n := by
  have hvalue : ∀ d ds, Radix.value 10 (d :: ds) = ds.foldl (fun n d => n * 10 + d) d := by
    intro d ds
    rw [Radix.value, List.foldl_cons, Nat.zero_mul, Nat.zero_add]
  constructor
  · intro h
    cases t with
    | nil => cases h
    | cons c t =>
      obtain ⟨d, hd, h⟩ := Option.bind_eq_some_iff.1 h
      obtain ⟨ds, hds, rfl⟩ := digitsFrom_eq_some.1 h
      exact ⟨d :: ds, .first hd hds, hvalue d ds⟩
  · rintro ⟨ds, ⟨hd, hds⟩, rfl⟩
    rw [natural?, hd, Option.bind_some, hvalue]
    exact digitsFrom_eq_some.2 ⟨_, hds, rfl⟩

/-- A run begins with neither sign. -/
theorem Run.not_sign (h : Run t ds) : (∀ u, t = '-' :: u → False) ∧ ∀ u, t = '+' :: u → False := by
  obtain ⟨hd, -⟩ := h
  constructor
  all_goals
    rintro u hu
    rw [(List.cons.inj hu).1] at hd
    exact (nomatch hd)

theorem unsigned_append {sign run : Text} (hsign : Sign sign s) (hrun : Run run ds) :
    unsigned (sign ++ run) = run := by
  cases hsign with
  | none => rw [List.nil_append, unsigned.eq_3 run hrun.not_sign.1 hrun.not_sign.2]
  | plus => rfl
  | minus => rfl

theorem signed?_eq_some : signed? t = some v ↔
    ∃ sign run s ds, t = sign ++ run ∧ Sign sign s ∧ Run run ds ∧ v = s * Radix.value 10 ds := by
  constructor
  · intro h
    unfold signed? at h
    split at h
    all_goals
      simp only [Option.map_eq_some_iff, Option.bind_eq_bind, Option.bind_eq_some_iff,
        Option.pure_def] at h
    · obtain ⟨_, ⟨n, hn, hcast⟩, rfl⟩ := h
      obtain ⟨ds, hds, rfl⟩ := natural?_eq_some.1 hn
      exact ⟨_, _, _, ds, rfl, .minus, hds, by rw [← Option.some.inj hcast, neg_one_mul]⟩
    · obtain ⟨_, ⟨n, hn, hcast⟩, rfl⟩ := h
      obtain ⟨ds, hds, rfl⟩ := natural?_eq_some.1 hn
      exact ⟨_, _, _, ds, rfl, .plus, hds, by rw [← Option.some.inj hcast, one_mul]⟩
    · obtain ⟨_, ⟨n, hn, hcast⟩, rfl⟩ := h
      obtain ⟨ds, hds, rfl⟩ := natural?_eq_some.1 hn
      exact ⟨[], _, _, ds, rfl, .none, hds, by rw [← Option.some.inj hcast, one_mul]⟩
  · rintro ⟨sign, run, s, ds, rfl, hsign, hrun, rfl⟩
    have hread : natural? run = some (Radix.value 10 ds) := natural?_eq_some.2 ⟨ds, hrun, rfl⟩
    cases hsign with
    | none =>
      rw [List.nil_append, signed?.eq_3 run hrun.not_sign.1 hrun.not_sign.2, hread, one_mul]
      rfl
    | plus =>
      rw [List.singleton_append, signed?, hread, one_mul]
      rfl
    | minus =>
      rw [List.singleton_append, signed?, hread, neg_one_mul]
      rfl

/-! ### Margins -/

section Margins

variable {pre sign run post : Text}

/-- The margins end where a sign or a digit stands. -/
theorem trimBy_isMargin (hpre : ∀ c ∈ pre, isMargin c) (hsign : Sign sign s) (hrun : Run run ds)
    (hpost : ∀ c ∈ post, isMargin c) :
    trimBy isMargin (pre ++ (sign ++ run) ++ post) = sign ++ run := by
  have hdigit : ∀ c, (digit? c).isSome → isMargin c = false := fun c hc => by
    obtain ⟨d, hd⟩ := Option.isSome_iff_exists.1 hc
    exact isMargin_of_digit? hd
  have hfirst : ∀ c ∈ (sign ++ run).head?, isMargin c = false := by
    cases hsign with
    | none => exact fun c hc => hdigit c (hrun.head? c hc)
    | plus => simp [isMargin, isBlank]
    | minus => simp [isMargin, isBlank]
  exact trimBy_surrounded hpre hpost hfirst fun c hc => hdigit c (hrun.getLast?_append sign c hc)

end Margins

theorem Literal.getLast? (h : Literal t ds v) :
    ∀ c ∈ t.getLast?, (digit? c).isSome ∨ isMargin c := by
  obtain ⟨-, -, hrun, hpost⟩ := h
  intro c hc
  rw [List.getLast?_append, Option.mem_def, Option.or_eq_some_iff] at hc
  rcases hc with hc | ⟨-, hc⟩
  · exact .inr (hpost c (List.mem_of_getLast? hc))
  · rw [← List.append_assoc] at hc
    exact .inl (hrun.getLast?_append _ c hc)

/-- Exactly the literals are read, as the numbers that their signs and digits spell. -/
theorem integer?_eq_some : integer? t = some v ↔ ∃ ds, Literal t ds v := by
  constructor
  · intro h
    obtain ⟨sign, run, s, ds, hcore, hsign, hrun, rfl⟩ := signed?_eq_some.1 h
    obtain ⟨pre, post, hpre, hpost, ht⟩ := exists_margins isMargin t
    rw [hcore] at ht
    rw [ht]
    exact ⟨ds, .surrounded hpre hsign hrun hpost⟩
  · rintro ⟨ds, hpre, hsign, hrun, hpost⟩
    rw [integer?, trimBy_isMargin hpre hsign hrun hpost]
    exact signed?_eq_some.2 ⟨_, _, _, ds, rfl, hsign, hrun, rfl⟩

/-! ### Length -/

theorem Run.length_filter (h : Run t ds) : (t.filter (· ≠ '_')).length = ds.length := by
  obtain ⟨hd, h⟩ := h
  exact (Digits.digit hd h).length_filter

theorem Run.nil_notMem_splitOn (h : Run t ds) : [] ∉ List.splitOn '_' t := by
  obtain ⟨hd, h⟩ := h
  obtain ⟨g, gs, hsplit, hgs⟩ := h.splitOn_low_line
  rw [← splitOn_eq, splitOn, if_neg (ne_low_line hd), hsplit]
  simpa using hgs

/-- The run of a literal is counted to its end, and no low line in it is misplaced. -/
theorem Literal.excess?_eq (h : Literal t ds v) :
    excess? t = if mostDigits < ds.length then some ds.length else none := by
  obtain ⟨hpre, hsign, hrun, hpost⟩ := h
  have hwhole :=
    List.takeWhile_eq_self_iff.2 fun c hc => show (c = '_' || (digit? c).isSome) = true by
    simpa using hrun.forall_mem c hc
  unfold excess?
  simp only [trimBy_isMargin hpre hsign hrun hpost, unsigned_append hsign hrun, hwhole,
    hrun.length_filter]
  simp [hrun.nil_notMem_splitOn]

/-! ### Numerals -/

theorem digit?_digitChar : ∀ d < 10, digit? (digitChar d) = some d := by
  decide

theorem Digits.map_digitChar (h : ∀ d ∈ ds, d < 10) : Digits (ds.map digitChar) ds := by
  induction ds with
  | nil => exact .nil
  | cons d ds ih =>
    obtain ⟨hd, hds⟩ := List.forall_mem_cons.1 h
    exact .digit (digit?_digitChar d hd) (ih hds)

/-- A numeral is a literal of its number, without a sign or a margin. -/
theorem exists_literal_ofNat (n : ℕ) :
    ∃ ds, Literal (ofNat n) ds n ∧ ds.length = (ofNat n).length := by
  obtain ⟨ds, hds, hne, hlt, hvalue⟩ := exists_digits n
  obtain ⟨d, ds, rfl⟩ := List.exists_cons_of_ne_nil hne
  obtain ⟨hd, hrest⟩ := List.forall_mem_cons.1 hlt
  have hrun : Run (ofNat n) (d :: ds) := by
    rw [hds]
    exact .first (digit?_digitChar d hd) (Digits.map_digitChar hrest)
  have hliteral : Literal ([] ++ ([] ++ ofNat n) ++ []) (d :: ds) (1 * Radix.value 10 (d :: ds)) :=
    .surrounded (List.forall_mem_nil _) .none hrun (List.forall_mem_nil _)
  rw [hvalue, one_mul, List.nil_append, List.nil_append, List.append_nil] at hliteral
  exact ⟨d :: ds, hliteral, by rw [hds, List.length_map]⟩

end Keyring.Text.Decimal
