import Calculator.Proofs.Grammar.Unrolling

/-!
# What a reading costs

Every construct is paid for by a token of its own: an operation by its operator, a power of ten by
its mark, the application of a function by the parenthesis that closes the argument, and all others
by the token that they begin with. So a procedure that has been called for some tokens performs at
most as many constructs as it passes tokens. An enclosure passes one token more than it has to pay
for, and that is how the function whose argument it is can pay (`Procedure.spare`).

The same count shows why the calls end. What a procedure leaves is a proper suffix of its tokens,
because it passes at least one (`Procedure.least`), and so the loops, which are called for what
others have left, are called for less. Both statements are one invariant, `Pays`. One layer keeps it
(`pays_unroll`), and by induction on the size of the call a reading has it (`pays_reading`).

Main statement: `reading_well_founded`.
-/

namespace Calculator.Grammar

variable {σ ε α β γ : Type}

/-! ### Counting -/

/-- An outcome with a count beside the state. -/
def withCount (count : Nat) : EStateM.Result ε σ β → EStateM.Result ε (σ × Nat) β
  | .ok value s => .ok value (s, count)
  | .error e s => .error e (s, count)

/-- An interpretation that counts the constructs it is asked about, also those that fail. -/
def Interpretation.tallied (interp : Interpretation σ ε α) : Interpretation (σ × Nat) ε α where
  perform construct := fun (s, count) => withCount (count + 1) ((interp.perform construct).run s)
  malformed := interp.malformed

/-- The second computation is the first one, and counts at most so many constructs. With success,
the count and the value are as described. -/
def Counts (plain : EStateM ε σ β) (counting : EStateM ε (σ × Nat) β) (most : Nat)
    (post : Nat → β → Prop) : Prop :=
  ∀ s, ∃ calls ≤ most,
    (∀ count, counting.run (s, count) = withCount (count + calls) (plain.run s)) ∧
      ∀ value s', plain.run s = .ok value s' → post calls value

section Counts

variable {plain : EStateM ε σ β} {counting : EStateM ε (σ × Nat) β} {most most' : Nat}
  {post post' : Nat → β → Prop}

theorem Counts.mono (h : Counts plain counting most post) (within : most ≤ most')
    (weaker : ∀ calls value, post calls value → post' calls value) :
    Counts plain counting most' post' := by
  intro s
  obtain ⟨calls, few, same, holds⟩ := h s
  exact ⟨calls, Nat.le_trans few within, same, fun value s' run => weaker _ _ (holds value s' run)⟩

theorem counts_pure {value : β} (holds : post 0 value) :
    Counts (pure value : EStateM ε σ β) (pure value) most post := by
  intro s
  refine ⟨0, Nat.zero_le _, fun _ => rfl, fun _ _ run => ?_⟩
  cases run
  exact holds

theorem counts_throw (e : ε) : Counts (throw e : EStateM ε σ β) (throw e) most post :=
  fun _ => ⟨0, Nat.zero_le _, fun _ => rfl, nofun⟩

/-- What the second part counts is added to the count of the first one. -/
theorem Counts.bind {post' : Nat → γ → Prop} {next : β → EStateM ε σ γ}
    {next' : β → EStateM ε (σ × Nat) γ} (first : Counts plain counting most' post)
    (within : most' ≤ most)
    (second : ∀ calls value, post calls value → Counts (next value) (next' value) (most - calls)
      fun calls' => post' (calls + calls')) :
    Counts (plain >>= next) (counting >>= next') most post' := by
  intro s
  obtain ⟨calls, few, same, holds⟩ := first s
  cases run : plain.run s with
  | error e s' =>
    -- The second part is not reached, in neither of the two computations.
    refine ⟨calls, Nat.le_trans few within, fun count => ?_, ?_⟩
    · rw [EStateM.run_bind, EStateM.run_bind, same, run]
      rfl
    · rw [EStateM.run_bind, run]
      exact nofun
  | ok value s' =>
    obtain ⟨calls', few', same', holds'⟩ := second calls value (holds value s' run) s'
    refine ⟨calls + calls', by omega, fun count => ?_, ?_⟩
    · rw [EStateM.run_bind, EStateM.run_bind, same, run, ← Nat.add_assoc]
      exact same' (count + calls)
    · rw [EStateM.run_bind, run]
      exact holds'

/-- A construct is counted when it is performed, and its value is used. -/
theorem counts_perform (interp : Interpretation σ ε α) (construct : Construct α)
    {next : α → EStateM ε σ β} {next' : α → EStateM ε (σ × Nat) β} (some : 0 < most)
    (behind : ∀ value, Counts (next value) (next' value) (most - 1) fun calls => post (1 + calls)) :
    Counts (interp.perform construct >>= next) (interp.tallied.perform construct >>= next') most
      post := by
  have once : Counts (interp.perform construct) (interp.tallied.perform construct) 1
      fun calls _ => calls = 1 :=
    fun s => ⟨1, Nat.le_refl 1, fun _ => rfl, fun _ _ _ => rfl⟩
  refine once.bind some fun calls value same => ?_
  subst same
  exact behind value

theorem counts_deepen (interp : Interpretation σ ε α) (limit : Option Nat) (depth : Nat)
    {next : Nat → EStateM ε σ β} {next' : Nat → EStateM ε (σ × Nat) β}
    (deeper : ∀ depth', Counts (next depth') (next' depth') most post) :
    Counts (deepen interp limit depth >>= next) (deepen interp.tallied limit depth >>= next') most
      post := by
  rcases admits_or_reached limit depth with admitted | ⟨most, rfl, reached⟩
  · rw [deepen_of_admits interp admitted, deepen_of_admits interp.tallied admitted, pure_bind,
      pure_bind]
    exact deeper (depth + 1)
  · rw [deepen_of_reached interp reached, deepen_of_reached interp.tallied reached]
    exact counts_throw _

end Counts

/-! ### Passing tokens and paying with them -/

/-- From the tokens, a procedure has passed at least so many, has performed so many constructs, and
has so many tokens to spare for which it has performed none. -/
structure Passes (least spare calls : Nat) (tokens rest : List Token) : Prop where
  suffix : rest <:+ tokens
  least_le : least + rest.length ≤ tokens.length
  calls_le : calls + spare + rest.length ≤ tokens.length

namespace Passes

variable {least least' spare spare' calls calls' : Nat} {tokens middle rest : List Token}

/-- Nothing is passed. -/
theorem refl (tokens : List Token) : Passes 0 0 0 tokens tokens :=
  ⟨List.suffix_rfl, Nat.le_of_eq (Nat.zero_add _), Nat.le_of_eq (Nat.zero_add _)⟩

/-- A token is passed, and nothing is performed for it yet. -/
theorem token (token : Token) (rest : List Token) : Passes 1 1 0 (token :: rest) rest :=
  ⟨List.suffix_cons token rest, Nat.le_of_eq (Nat.add_comm _ _), Nat.le_of_eq (Nat.add_comm _ _)⟩

theorem trans (h : Passes least spare calls tokens middle)
    (h' : Passes least' spare' calls' middle rest) :
    Passes (least + least') (spare + spare') (calls + calls') tokens rest := by
  obtain ⟨suffix, least_le, calls_le⟩ := h
  obtain ⟨suffix', least_le', calls_le'⟩ := h'
  exact ⟨suffix'.trans suffix, by omega, by omega⟩

/-- A token that is to spare pays for a construct. -/
theorem pay (h : Passes least (spare + 1) calls tokens rest) :
    Passes least spare (calls + 1) tokens rest :=
  ⟨h.suffix, h.least_le, by have := h.calls_le; omega⟩

theorem mono (h : Passes least spare calls tokens rest) (fewer : least' ≤ least)
    (fewer' : spare' ≤ spare) : Passes least' spare' calls tokens rest :=
  ⟨h.suffix, by have := h.least_le; omega, by have := h.calls_le; omega⟩

theorem length_lt (h : Passes (least + 1) spare calls tokens rest) :
    rest.length < tokens.length := by
  have := h.least_le
  omega

theorem length_le_sub (h : Passes least spare calls tokens rest) :
    rest.length ≤ tokens.length - calls := by
  have := h.calls_le
  omega

/-- With a token to spare, one more construct may be performed. -/
theorem pos_sub (h : Passes least (spare + 1) calls tokens rest) : 0 < tokens.length - calls := by
  have := h.calls_le
  omega

end Passes

/-- The number of tokens that a procedure passes at least. -/
def Procedure.least : Procedure α → Nat
  | .loop _ _ => 0
  | _ => 1

/-- The number of tokens that a procedure leaves to spare. -/
def Procedure.spare : Procedure α → Nat
  | .enclosed _ => 1
  | _ => 0

/-- A walk passes tokens as the procedure has to, and pays for its constructs with them. The second
walk does what the first one does, and counts. -/
def Pays (walk : Walk σ ε α) (counting : Walk (σ × Nat) ε α) (procedure : Procedure α)
    (depth : Nat) (tokens : List Token) : Prop :=
  Counts (walk procedure depth tokens) (counting procedure depth tokens) tokens.length
    fun calls found => Passes procedure.least procedure.spare calls tokens found.2

/-! ### One layer -/

section Layer

variable (interp : Interpretation σ ε α) (limit : Option Nat) {walk : Walk σ ε α}
  {counting : Walk (σ × Nat) ε α}

/-- The walks pay in all smaller calls. -/
def PaysBelow (walk : Walk σ ε α) (counting : Walk (σ × Nat) ε α) (procedure : Procedure α)
    (tokens : List Token) : Prop :=
  ∀ procedure' depth' tokens', procedure'.size tokens' < procedure.size tokens →
    Pays walk counting procedure' depth' tokens'

theorem Pays.operand {tier : Tier} {depth : Nat} {tokens : List Token}
    (h : Pays walk counting (.operand tier) depth tokens) :
    Counts (walk (.operand tier) depth tokens) (counting (.operand tier) depth tokens) tokens.length
      fun calls found => Passes 1 0 calls tokens found.2 := by
  cases tier <;> exact h

theorem pays_chain {tier : Tier} {tokens : List Token}
    (below : PaysBelow walk counting (.chain tier) tokens) (depth : Nat) :
    Pays (unroll interp limit walk) (unroll interp.tallied limit counting) (.chain tier) depth
      tokens := by
  have operand := below (.operand tier) depth tokens Procedure.size_operand_lt
  refine operand.operand.bind (Nat.le_refl _) fun calls ⟨left, rest⟩ passed => ?_
  -- The operand has taken a token, so the loop is a smaller call.
  have loop := below (.loop tier left) depth rest (Procedure.size_lt_of_shorter passed.length_lt)
  exact loop.mono passed.length_le_sub fun calls' found passed' => passed.trans passed'

theorem pays_loop {tier : Tier} {left : α} {tokens : List Token}
    (below : PaysBelow walk counting (.loop tier left) tokens) (depth : Nat) :
    Pays (unroll interp limit walk) (unroll interp.tallied limit counting) (.loop tier left) depth
      tokens := by
  cases tokens with
  | nil => exact counts_pure (.refl _)
  | cons token tail =>
    rw [Pays, unroll, unroll]
    cases tier.operator? token with
    | none => exact counts_pure (.refl _)
    | some op =>
      have operand := below (.operand tier) depth tail Procedure.size_lt_cons
      refine operand.operand.bind (Nat.le_succ _) ?_
      rintro calls ⟨right, rest⟩ passed
      -- The operator has been passed in front of the operand, and pays for the operation.
      have joined := (Passes.token token tail).trans passed
      rw [Nat.zero_add] at joined
      refine counts_perform interp _ joined.pos_sub fun value => ?_
      have loop := below (.loop tier value) depth rest
        (Procedure.size_lt_of_shorter joined.length_lt)
      refine loop.mono joined.pay.length_le_sub fun calls' found passed' => ?_
      rw [← Nat.add_assoc]
      exact (joined.pay.trans passed').mono (Nat.zero_le _) (Nat.zero_le _)

theorem pays_scaled {tokens : List Token} (below : PaysBelow walk counting .scaled tokens)
    (depth : Nat) :
    Pays (unroll interp limit walk) (unroll interp.tallied limit counting) .scaled depth
      tokens := by
  have mantissa := below .atom depth tokens Procedure.size_atom_lt
  refine mantissa.bind (Nat.le_refl _) fun calls ⟨value, rest⟩ passed => ?_
  -- There is a second call and a construct only behind a mark.
  cases rest with
  | nil => exact counts_pure passed
  | cons token tail =>
    cases token with
    | exponentMark =>
      have marked := passed.trans (.token _ tail)
      have exponent := below .atom depth tail (Procedure.size_lt_of_shorter marked.length_lt)
      refine exponent.bind marked.length_le_sub fun calls' ⟨value', rest⟩ passed' => ?_
      have whole := marked.trans passed'
      refine counts_perform interp _ ?_ fun value => counts_pure ?_
      · have := whole.pos_sub
        omega
      · rw [← Nat.add_assoc]
        exact whole.pay.mono (Nat.le_add_left 1 2) (Nat.zero_le _)
    | _ => exact counts_pure passed

theorem pays_call {function : Trig} {tokens : List Token}
    (below : PaysBelow walk counting (.call function) tokens) (depth : Nat) :
    Pays (unroll interp limit walk) (unroll interp.tallied limit counting) (.call function) depth
      tokens := by
  have argument := below (.enclosed (.argument function)) depth tokens Procedure.size_argument_lt
  refine argument.bind (Nat.le_refl _) fun calls ⟨value, rest⟩ passed => ?_
  -- The name has been passed before the call. What pays is the closing parenthesis.
  exact counts_perform interp _ passed.pos_sub fun value => counts_pure passed.pay

theorem pays_enclosed {enclosure : Enclosure} {tokens : List Token}
    (below : PaysBelow walk counting (.enclosed enclosure) tokens) (depth : Nat) :
    Pays (unroll interp limit walk) (unroll interp.tallied limit counting) (.enclosed enclosure)
      depth tokens := by
  refine counts_deepen interp limit depth fun deeper => ?_
  have content := below (.chain .additive) deeper tokens Procedure.size_content_lt
  refine content.bind (Nat.le_refl _) fun calls ⟨value, rest⟩ passed => ?_
  cases rest with
  | nil => exact counts_throw _
  | cons token tail =>
    cases token with
    | closing =>
      -- Nothing is performed for the parenthesis, so it is to spare.
      have closed := passed.trans (.token _ tail)
      exact counts_pure (closed.mono (Nat.le_add_left 1 1) (Nat.le_add_left 1 0))
    | _ => exact counts_throw _

/-- The token that an atom begins with pays for its construct, behind the part that follows it. -/
theorem counts_perform_behind {token : Token} {tail rest : List Token} {least spare calls : Nat}
    (passed : Passes least spare calls tail rest) (construct : Construct α) :
    Counts (do let value ← interp.perform construct; return (value, rest))
      (do let value ← interp.tallied.perform construct; return (value, rest))
      ((token :: tail).length - calls)
      fun calls' found => Passes 1 0 (calls + calls') (token :: tail) found.2 := by
  have whole := (Passes.token token tail).trans passed
  rw [Nat.zero_add, Nat.add_comm 1 spare] at whole
  refine counts_perform interp construct whole.pos_sub fun value => counts_pure ?_
  exact whole.pay.mono (Nat.le_add_right 1 _) (Nat.zero_le _)

theorem pays_atom {tokens : List Token} (below : PaysBelow walk counting .atom tokens)
    (depth : Nat) :
    Pays (unroll interp limit walk) (unroll interp.tallied limit counting) .atom depth tokens := by
  have behind (procedure : Procedure α) (depth : Nat) {token : Token} {tail : List Token}
      (same : tokens = token :: tail) : Pays walk counting procedure depth tail :=
    below _ depth tail (same ▸ Procedure.size_lt_cons)
  unfold Pays unroll
  dsimp only
  split
  -- A literal pays with its number, whatever else it passes.
  · next whole fraction rest =>
    refine counts_perform interp _ (Nat.succ_pos _) fun value => counts_pure ?_
    have pointed := (Passes.token (.number whole) (.point :: .fraction fraction :: rest)).trans
      (.token .point _)
    exact (pointed.trans (.token _ rest)).pay.mono (Nat.le_add_left 1 2) (Nat.zero_le _)
  · exact counts_throw _
  · refine counts_perform interp _ (Nat.succ_pos _) fun value => counts_pure ?_
    exact (Passes.token _ _).pay
  -- The construct of a call is performed by the call.
  · next function tail =>
    refine (behind (.call function) depth rfl).mono (Nat.le_succ _) fun calls found passed => ?_
    have whole := (Passes.token (.function function) tail).trans passed
    rw [Nat.zero_add] at whole
    exact whole.mono (Nat.le_add_left 1 1) (Nat.zero_le _)
  -- Parentheses and negations pay with the token in front of their content.
  · next tail =>
    refine (behind (.enclosed .parentheses) depth rfl).bind (Nat.le_succ _) ?_
    rintro calls ⟨inner, rest⟩ passed
    exact counts_perform_behind interp passed _
  · next tail =>
    refine counts_deepen interp limit depth fun deeper => ?_
    refine (behind (.chain .multiplicative) deeper rfl).bind (Nat.le_succ _) ?_
    rintro calls ⟨operand, rest⟩ passed
    exact counts_perform_behind interp passed _
  · exact counts_throw _
  · exact counts_throw _

/-- **One layer pays** if the walk does in all smaller calls. -/
theorem pays_unroll {procedure : Procedure α} {tokens : List Token}
    (below : PaysBelow walk counting procedure tokens) (depth : Nat) :
    Pays (unroll interp limit walk) (unroll interp.tallied limit counting) procedure depth
      tokens := by
  cases procedure with
  | chain tier => exact pays_chain interp limit below depth
  | loop tier left => exact pays_loop interp limit below depth
  | scaled => exact pays_scaled interp limit below depth
  | atom => exact pays_atom interp limit below depth
  | call function => exact pays_call interp limit below depth
  | enclosed enclosure => exact pays_enclosed interp limit below depth

end Layer

/-! ### The reading -/

section Reading

variable (interp : Interpretation σ ε α) (limit : Option Nat)

/-- **A reading pays.** -/
theorem pays_reading (procedure : Procedure α) (depth : Nat) (tokens : List Token) :
    Pays (reading interp limit) (reading interp.tallied limit) procedure depth tokens := by
  induction hn : procedure.size tokens using WellFoundedLT.induction generalizing procedure depth
    tokens with
  | ind n ih =>
    have layer := pays_unroll interp limit
      (fun procedure' depth' tokens' smaller => ih _ (hn ▸ smaller) procedure' depth' tokens' rfl)
      depth
    -- A layer of the reading, with the reading in it, is the reading again.
    rw [Pays, unroll_eq_reading fun _ _ _ _ => rfl, unroll_eq_reading fun _ _ _ _ => rfl] at layer
    exact layer

/-- **A reading ends without a limit.** Under every interpretation, and with every limit or none:

* A procedure only calls for less. In the lexicographic order of the tokens that are left and the
  ranks, which is well-founded, one layer of the reading is right as soon as the walk that answers
  its calls is right about the smaller ones, whatever the walk does otherwise.
* So calls are nested at most as deep as eight times the number of tokens and the rank together: of
  a walk that is unrolled more often, whatever it does, nothing is left but the reading.
* What a procedure leaves when it succeeds is a suffix of its tokens, and a proper one except for
  the loops.
* It performs at most as many constructs as it has been given tokens, also if it fails, and as it
  has passed tokens if it succeeds. Counting them changes nothing else. -/
theorem reading_well_founded :
    (∀ tokens, read interp limit tokens = reading interp limit (.chain .additive) 0 tokens) ∧
    (WellFounded fun call call' : Procedure α × List Token =>
      call.1.size call.2 < call'.1.size call'.2) ∧
    (∀ (walk : Walk σ ε α) procedure depth tokens, RightBelow interp limit walk procedure tokens →
      unroll interp limit walk procedure depth tokens =
        reading interp limit procedure depth tokens) ∧
    (∀ (walk : Walk σ ε α) layers procedure depth tokens,
      8 * tokens.length + procedure.rank < layers →
      (unroll interp limit)^[layers] walk procedure depth tokens =
        reading interp limit procedure depth tokens) ∧
    (∀ procedure depth tokens s value rest s',
      (reading interp limit procedure depth tokens).run s = .ok (value, rest) s' →
      rest <:+ tokens ∧ ((∀ tier left, procedure ≠ .loop tier left) → rest ≠ tokens)) ∧
    ∀ procedure depth tokens s, ∃ calls ≤ tokens.length,
      (∀ count, (reading interp.tallied limit procedure depth tokens).run (s, count) =
        withCount (count + calls) ((reading interp limit procedure depth tokens).run s)) ∧
      ∀ value rest s', (reading interp limit procedure depth tokens).run s = .ok (value, rest) s' →
        calls + rest.length ≤ tokens.length := by
  refine ⟨read_eq_reading, InvImage.wf _ wellFounded_lt, ?_, ?_, ?_, ?_⟩
  · intro walk procedure depth tokens right
    exact unroll_eq_reading right depth
  · intro walk layers procedure depth tokens enough
    exact iterate_unroll walk enough depth
  · intro procedure depth tokens s value rest s' run
    obtain ⟨_, -, -, holds⟩ := pays_reading interp limit procedure depth tokens s
    have passed := holds _ _ run
    refine ⟨passed.suffix, fun rule same => ?_⟩
    have least : procedure.least = 1 := by
      cases procedure with
      | loop tier left => exact absurd rfl (rule tier left)
      | _ => rfl
    rw [least] at passed
    exact Nat.ne_of_lt passed.length_lt (congrArg List.length same)
  · intro procedure depth tokens s
    obtain ⟨calls, few, same, holds⟩ := pays_reading interp limit procedure depth tokens s
    refine ⟨calls, few, same, fun value rest s' run => ?_⟩
    have passed := holds _ _ run
    exact Nat.le_trans (Nat.add_le_add_right (Nat.le_add_right _ _) _) passed.calls_le

end Reading

/-- The tree of `-x)` ends in front of the parenthesis. Thirty layers are enough for three tokens,
even if the walk behind them always fails, and one layer is enough if the walk behind it only fails
where the call is no smaller. -/
theorem reading_well_founded_minus :
    let tokens : List Token := [.negation, .number 1.0, .closing]
    let rules : Walk Unit SyntaxError Expression := reading Expression.builder none
    let stuck : Walk Unit SyntaxError Expression := fun _ _ _ => throw .unexpectedEnd
    let bounded : Walk Unit SyntaxError Expression := fun procedure depth rest =>
      if procedure.size rest < (Procedure.chain .additive : Procedure Expression).size tokens then
        rules procedure depth rest
      else stuck procedure depth rest
    8 * tokens.length + (Procedure.chain .additive : Procedure Expression).rank < 30 ∧
      (unroll Expression.builder none)^[30] stuck (.chain .additive) 0 tokens =
        rules (.chain .additive) 0 tokens ∧
      RightBelow Expression.builder none bounded (.chain .additive) tokens ∧
      unroll Expression.builder none bounded (.chain .additive) 0 tokens =
        rules (.chain .additive) 0 tokens ∧
      (rules (.chain .additive) 0 tokens).run () =
        .ok (.negation (.literal 1.0 none), [.closing]) () ∧
      [.closing] <:+ tokens ∧ [.closing] ≠ tokens ∧
      ∃ calls, calls + 1 ≤ 3 ∧
        (reading Expression.builder.tallied none (.chain .additive) 0 tokens).run ((), 0) =
          .ok (.negation (.literal 1.0 none), [.closing]) ((), 0 + calls) := by
  intro tokens rules stuck bounded
  obtain ⟨-, -, layer, layers, left, few⟩ := reading_well_founded Expression.builder none
  have enough :
      8 * tokens.length + (Procedure.chain .additive : Procedure Expression).rank < 30 := by
    decide
  have right : RightBelow Expression.builder none bounded (.chain .additive) tokens :=
    fun _ _ _ smaller => if_pos smaller
  have found : (rules (.chain .additive) 0 tokens).run () =
      .ok (.negation (.literal 1.0 none), [.closing]) () := by
    have general (x : Float) : (reading Expression.builder none (.chain .additive) 0
        [.negation, .number x, .closing]).run () =
          .ok (.negation (.literal x none), [.closing]) () := by
      cbv
    exact general 1.0
  obtain ⟨suffix, proper⟩ := left _ _ _ _ _ _ _ found
  obtain ⟨calls, -, counted, passed⟩ := few (.chain .additive) 0 tokens ()
  have rule (tier : Tier) (left : Expression) : Procedure.chain .additive ≠ .loop tier left := by
    rintro ⟨⟩
  refine ⟨enough, layers stuck 30 _ _ _ enough, right, layer _ _ _ _ right, found, suffix,
    proper rule, calls, passed _ _ _ found, ?_⟩
  rw [counted]
  exact congrArg (withCount (0 + calls)) found

end Calculator.Grammar
