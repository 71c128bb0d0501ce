import PySwitch.CreditBounds
import PySwitch.Effect
import PySwitch.WeightedFairness

namespace PySwitch.RouterRuns

open ProviderRouter WeightedFairness

/-- A router, with what it has observed of the providers. -/
structure Routing where
  router : ProviderRouter
  stats : Provider → ProviderStats

inductive RouterCall where
  | choose (healthy : List Provider)
  | setStrategy (strategy : RoutingStrategy)
  | setCompositeWeights (weights : CompositeWeights)
  | startRequest (provider : Provider)
  | finishRequest (provider : Provider) (success : Bool) (latencyMs : ℚ)
      (errorCode : Option String) (now : Seconds)

/-- A choice by weights: who was there, what they weighed, and who was chosen. -/
structure Round where
  present : List Provider
  weighed : Provider → ℝ
  chosen : Provider

namespace Routing

/-- A router that has not chosen yet, as a service makes it. -/
def fresh (strategy : RoutingStrategy) (weights : CompositeWeights) (windowSize : ℕ) : Routing :=
  ⟨{ strategy, compositeWeights := weights }, fun _ => { windowSize }⟩

/-- Without a healthy provider the choice raises and nothing has changed. -/
noncomputable def step (r : Routing) : RouterCall → Routing
  | .choose healthy =>
    match r.router.choose r.stats healthy with
    | .ok (_, router) => { r with router }
    | .error _ => r
  | .setStrategy strategy => { r with router.strategy := strategy }
  | .setCompositeWeights weights => { r with router.compositeWeights := weights }
  | .startRequest provider =>
    { r with stats := Function.update r.stats provider (r.stats provider).start }
  | .finishRequest provider success latencyMs errorCode now =>
    { r with
      stats := Function.update r.stats provider
        ((r.stats provider).finish success latencyMs errorCode now) }

noncomputable def run (r : Routing) (calls : List RouterCall) : Routing := calls.foldl step r

noncomputable def round (r : Routing) : RouterCall → Option Round
  | .choose healthy =>
    match r.router.strategy, r.router.choose r.stats healthy with
    | .weightedRoundRobin, .ok (provider, _) => some ⟨healthy, share (observe r.stats), provider⟩
    | _, _ => none
  | _ => none

/-- The choices by weights of a run, in their order. -/
noncomputable def rounds (r : Routing) : List RouterCall → List Round
  | [] => []
  | call :: calls => (r.round call).toList ++ (r.step call).rounds calls

noncomputable def credit (r : Routing) : Provider → ℝ :=
  WeightedFairness.credit r.router.weightedCurrent

/-- A router raises only when no provider is healthy. -/
theorem choose_error {stats : Provider → ProviderStats} {r : ProviderRouter}
    {healthy : List Provider} {x : Exn} (h : r.choose stats healthy = .error x) :
    healthy = [] ∧ x = .lookup "No healthy payment provider is available" := by
  cases healthy with
  | nil =>
    cases h
    exact ⟨rfl, rfl⟩
  | cons first rest =>
    cases strategy : r.strategy with
    | composite =>
      simp only [ProviderRouter.choose, strategy, selectComposite] at h
      split at h
      · cases h
      · rename_i candidates empty
        have := congrArg List.length (List.argmax_eq_none.mp empty)
        simp at this
    | _ => simp [ProviderRouter.choose, strategy] at h

/-- Every answer of a router is one that the service can be given. -/
theorem choose_answers (r : Routing) (healthy : List Provider) (t : Tid) (w : World) :
    ∃ i, ProviderEffect.enter t (.choose healthy) i w =
      .reply ((r.router.choose r.stats healthy).map Prod.fst) w := by
  cases choice : r.router.choose r.stats healthy with
  | error x =>
    obtain ⟨rfl, rfl⟩ := choose_error choice
    exact ⟨.go, rfl⟩
  | ok chosen =>
    have mem := choose_mem choice
    obtain ⟨index, found⟩ := List.mem_iff_getElem?.mp mem
    cases healthy with
    | nil => cases mem
    | cons first rest => exact ⟨.pick index, by simp [ProviderEffect.enter, found, Except.map]⟩

end Routing

namespace Round

/-- What a round credits a provider with. -/
noncomputable def due (provider : Provider) (d : Round) : ℝ :=
  if provider ∈ d.present then d.weighed provider else 0

/-- What a round charges a provider for having chosen it: the weight of all who were there. -/
noncomputable def paid (provider : Provider) (d : Round) : ℝ :=
  if d.chosen = provider then (d.present.map d.weighed).sum else 0

/-- The best credit wins among providers whose weights are in bounds. -/
structure Fair (providers : List Provider) (credit : Provider → ℝ) (d : Round) : Prop where
  present : d.present.Sublist providers
  chosen : d.chosen ∈ d.present
  weighed : ∀ p, 0.05 ≤ d.weighed p ∧ d.weighed p ≤ 1
  best : ∀ p ∈ d.present, credit p + d.weighed p ≤ credit d.chosen + d.weighed d.chosen

end Round

open Routing

variable {providers : List Provider} {r : Routing} {call : RouterCall} {calls : List RouterCall}
  {p : Provider} {d : Round}

theorem share_bounds (stats : Provider → ProviderStats) (p : Provider) :
    0.05 ≤ share (observe stats) p ∧ share (observe stats) p ≤ 1 := by
  constructor
  · exact le_max_left ..
  · apply max_le
    · norm_num
    · have rate : (stats p).successRate ≤ 1 := by
        unfold ProviderStats.successRate
        by_cases none : (stats p).recent = []
        · rw [if_pos none]
        · rw [if_neg none]
          apply div_le_one_of_le₀
          · exact_mod_cast List.countP_le_length
          · exact Nat.cast_nonneg _
      show ((stats p).successRate : ℝ) ≤ 1
      exact_mod_cast rate

/-- The calls offer the router providers of the service, in the order of the service. -/
def Offers (providers : List Provider) : RouterCall → Prop
  | .choose healthy => healthy.Sublist providers
  | _ => True

/-- A call leaves the credits alone, or it is a round that credits those who are there and
charges the one who is chosen. -/
theorem step_credit (distinct : providers.Nodup) (offers : Offers providers call) :
    r.round call = none ∧ (r.step call).credit = r.credit ∨
    ∃ d, r.round call = some d ∧ d.Fair providers r.credit ∧ (r.step call).credit =
      SmoothRoundRobin.round d.present.toFinset d.weighed r.credit d.chosen := by
  cases call with
  | choose healthy =>
    cases healthy with
    | nil => exact .inl ⟨by cases h : r.router.strategy <;> simp [Routing.round, h, choose], rfl⟩
    | cons first rest =>
      cases strategy : r.router.strategy with
      | weightedRoundRobin =>
        have nodup : (first :: rest).Nodup := distinct.sublist offers
        have result : Chosen (observe r.stats) (first :: rest) r.router.weightedCurrent
            (weightedRoundRobin (observe r.stats) r.router.weightedCurrent first rest) :=
          weightedRoundRobin_chosen nodup
        have ok : r.router.choose r.stats (first :: rest) = .ok ((weightedRoundRobin
            (observe r.stats) r.router.weightedCurrent first rest).1, { r.router with
              weightedCurrent := (weightedRoundRobin (observe r.stats) r.router.weightedCurrent
                first rest).2 }) := by
          simp [choose, strategy]
        generalize weightedRoundRobin (observe r.stats) r.router.weightedCurrent first rest = chosen
          at result ok
        refine .inr ⟨⟨first :: rest, share (observe r.stats), chosen.1⟩, ?_, ?_, ?_⟩
        · simp [Routing.round, strategy, ok]
        · exact ⟨offers, result.mem, share_bounds r.stats, result.best⟩
        · funext p
          by_cases there : p ∈ first :: rest
          · rw [SmoothRoundRobin.round, if_pos (List.mem_toFinset.mpr there)]
            simpa [Routing.credit, Routing.step, ok] using result.credit_eq p there
          · rw [SmoothRoundRobin.round, if_neg (mt List.mem_toFinset.mp there)]
            simp [Routing.credit, Routing.step, ok, WeightedFairness.credit, result.frame p there]
      | composite =>
        left
        simp only [Routing.round, Routing.step, strategy, choose, true_and]
        generalize selectComposite _ _ = selection
        cases selection <;> rfl
      | _ =>
        left
        simp [Routing.round, Routing.step, Routing.credit, choose, strategy]
  | _ => exact .inl ⟨rfl, rfl⟩

theorem Round.Fair.balance {credit : Provider → ℝ} (fair : d.Fair providers credit)
    (distinct : providers.Nodup) (p : Provider) :
    SmoothRoundRobin.round d.present.toFinset d.weighed credit d.chosen p =
      credit p + d.due p - d.paid p := by
  have total := List.sum_toFinset d.weighed (distinct.sublist fair.present)
  by_cases there : p ∈ d.present
  · rw [SmoothRoundRobin.round, if_pos (List.mem_toFinset.mpr there), SmoothRoundRobin.turn, total]
    simp [Round.due, Round.paid, there, eq_comm]
  · have other : d.chosen ≠ p := fun same => there (same ▸ fair.chosen)
    rw [SmoothRoundRobin.round, if_neg (mt List.mem_toFinset.mp there)]
    simp [Round.due, Round.paid, there, other]

theorem Round.Fair.solvent (fair : d.Fair providers r.credit)
    (h : SmoothRoundRobin.Solvent providers.toFinset r.credit) :
    SmoothRoundRobin.Solvent providers.toFinset
      (SmoothRoundRobin.round d.present.toFinset d.weighed r.credit d.chosen) := by
  apply h.round
  · intro p there
    exact List.mem_toFinset.mpr (fair.present.subset (List.mem_toFinset.mp there))
  · exact List.mem_toFinset.mpr fair.chosen
  · intro p _
    linarith [(fair.weighed p).1]
  · exact fun p _ => (fair.weighed p).2
  · exact fun p there => fair.best p (List.mem_toFinset.mp there)

/-- What a run of the router leaves behind, whatever it is called for. -/
structure Kept (providers : List Provider) (r r' : Routing) (rounds : List Round) : Prop where
  solvent : SmoothRoundRobin.Solvent providers.toFinset r'.credit
  balance : ∀ p, r'.credit p =
    r.credit p + (rounds.map (Round.due p)).sum - (rounds.map (Round.paid p)).sum
  weighed : ∀ d ∈ rounds, ∀ p, 0.05 ≤ d.weighed p

theorem step_kept (distinct : providers.Nodup) (offers : Offers providers call)
    (h : SmoothRoundRobin.Solvent providers.toFinset r.credit) :
    Kept providers r (r.step call) (r.round call).toList := by
  obtain ⟨none, same⟩ | ⟨d, found, fair, credited⟩ := step_credit (r := r) distinct offers
  · rw [none]
    constructor
    · rw [same]
      exact h
    · intro p
      simp [same]
    · intro d mem
      simp at mem
  · rw [found]
    constructor
    · rw [credited]
      exact fair.solvent h
    · intro p
      rw [credited, fair.balance distinct p]
      simp
    · intro d' mem p
      obtain rfl : d' = d := by simpa using mem
      exact (fair.weighed p).1

theorem run_kept (distinct : providers.Nodup) (offers : ∀ call ∈ calls, Offers providers call)
    (h : SmoothRoundRobin.Solvent providers.toFinset r.credit) :
    Kept providers r (r.run calls) (r.rounds calls) := by
  induction calls generalizing r with
  | nil =>
    constructor
    · exact h
    · intro p
      simp [Routing.run, Routing.rounds]
    · intro d mem
      simp [Routing.rounds] at mem
  | cons call calls ih =>
    have first : Kept providers r (r.step call) (r.round call).toList :=
      step_kept distinct (offers call List.mem_cons_self) h
    have rest := ih (fun c mem => offers c (List.mem_cons_of_mem _ mem)) first.solvent
    constructor
    · exact rest.solvent
    · intro p
      have here := first.balance p
      have there : (r.run (call :: calls)).credit p = _ := rest.balance p
      rw [there, here, Routing.rounds, List.map_append, List.map_append, List.sum_append,
        List.sum_append]
      ring
    · intro d mem p
      obtain mem | mem := List.mem_append.mp mem
      · exact first.weighed d mem p
      · exact rest.weighed d mem p

theorem fresh_solvent (strategy : RoutingStrategy) (weights : CompositeWeights) (windowSize : ℕ) :
    SmoothRoundRobin.Solvent providers.toFinset (fresh strategy weights windowSize).credit :=
  SmoothRoundRobin.solvent_zero

theorem due_of_present {rounds : List Round} (weighed : ∀ d ∈ rounds, ∀ p, 0.05 ≤ d.weighed p)
    (p : Provider) :
    0.05 * (rounds.countP fun d => p ∈ d.present : ℝ) ≤ (rounds.map (Round.due p)).sum := by
  induction rounds with
  | nil => simp
  | cons d rounds ih =>
    have rest := ih fun d' mem => weighed d' (List.mem_cons_of_mem _ mem)
    have here := weighed d List.mem_cons_self p
    rw [List.countP_cons, List.map_cons, List.sum_cons, Round.due]
    by_cases there : p ∈ d.present
    · simp only [there, decide_true, if_true]
      push_cast
      linarith
    · simpa [there] using rest

theorem paid_of_unchosen {rounds : List Round} (unchosen : ∀ d ∈ rounds, d.chosen ≠ p) :
    (rounds.map (Round.paid p)).sum = 0 := by
  apply List.sum_eq_zero
  intro x mem
  obtain ⟨d, found, rfl⟩ := List.mem_map.mp mem
  exact if_neg (unchosen d found)

/-- However health, success rates and the strategy change in between, in any part of a run each
provider is charged for being chosen what it is due, up to a bound that does not depend on the
length of the run, and so nobody who keeps being there is passed over for ever. -/
theorem rounds_fair (providers : List Provider) (distinct : providers.Nodup)
    (strategy : RoutingStrategy) (weights : CompositeWeights) (windowSize : ℕ)
    (before calls : List RouterCall) (offers : ∀ call ∈ before ++ calls, Offers providers call)
    (p : Provider) (mem : p ∈ providers) :
    let rounds := ((fresh strategy weights windowSize).run before).rounds calls
    let spread : ℝ := 2 * providers.length * (providers.length - 1)
    |(rounds.map (Round.due p)).sum - (rounds.map (Round.paid p)).sum| ≤ spread ∧
      (20 * spread < (rounds.countP fun d => p ∈ d.present) → ∃ d ∈ rounds, d.chosen = p) := by
  intro rounds spread
  have start := run_kept distinct
    (fun call found => offers call (List.mem_append_left _ found))
    (fresh_solvent strategy weights windowSize)
  have kept := run_kept distinct (fun call found => offers call (List.mem_append_right _ found))
    start.solvent
  have low := start.solvent.bounds (List.mem_toFinset.mpr mem)
  have high := kept.solvent.bounds (List.mem_toFinset.mpr mem)
  rw [List.toFinset_card_of_nodup distinct] at low high
  have balance := kept.balance p
  have close : |(rounds.map (Round.due p)).sum - (rounds.map (Round.paid p)).sum| ≤ spread := by
    rw [abs_le]
    constructor
    · linarith
    · linarith
  refine ⟨close, fun often => ?_⟩
  by_contra never
  have unpaid : (rounds.map (Round.paid p)).sum = 0 :=
    paid_of_unchosen fun d found same => never ⟨d, found, same⟩
  have due := due_of_present kept.weighed p
  have most := (abs_le.mp close).2
  rw [unpaid, sub_zero] at most
  linarith

theorem round_weighted {r : Routing} (weighted : r.router.strategy = .weightedRoundRobin)
    (first : Provider) (rest : List Provider) :
    (∃ d, r.round (.choose (first :: rest)) = some d ∧ d.present = first :: rest) ∧
      (r.step (.choose (first :: rest))).router.strategy = .weightedRoundRobin := by
  simp [Routing.round, Routing.step, ProviderRouter.choose, weighted]

theorem rounds_weighted {r : Routing} (weighted : r.router.strategy = .weightedRoundRobin)
    {first p : Provider} {rest : List Provider} (mem : p ∈ first :: rest) (n : ℕ) :
    (r.rounds (List.replicate n (.choose (first :: rest)))).countP (p ∈ Round.present ·) = n := by
  induction n generalizing r with
  | zero => rfl
  | succ n ih =>
    obtain ⟨⟨d, chosen, present⟩, next⟩ := round_weighted weighted first rest
    rw [List.replicate_succ, Routing.rounds, chosen, Option.toList_some, List.singleton_append,
      List.countP_cons, ih next, if_pos (by simpa [present] using mem)]

/-- A provider that comes back, and is healthy for long enough then. -/
theorem rounds_fair_recovered :
    let calls := List.replicate 81 (.choose ["stripe", "adyen"])
    let rounds := ((fresh .weightedRoundRobin .default 20).run
      [.choose ["stripe"], .finishRequest "adyen" false 20 none 3]).rounds calls
    let spread : ℝ := 2 * (2 : ℕ) * ((2 : ℕ) - 1)
    |(rounds.map (Round.due "adyen")).sum - (rounds.map (Round.paid "adyen")).sum| ≤ spread ∧
      ∃ d ∈ rounds, d.chosen = "adyen" := by
  intro calls rounds spread
  obtain ⟨close, served⟩ := rounds_fair ["stripe", "adyen"] (by decide) .weightedRoundRobin
    .default 20 [.choose ["stripe"], .finishRequest "adyen" false 20 none 3] calls
    (by simp [calls, Offers]) "adyen" (by decide)
  refine ⟨close, served ?_⟩
  have often : rounds.countP (fun d => "adyen" ∈ d.present) = 81 := by
    apply rounds_weighted
    · simp [Routing.run, Routing.step, ProviderRouter.choose, fresh]
    · simp
  rw [often]
  norm_num

end PySwitch.RouterRuns
