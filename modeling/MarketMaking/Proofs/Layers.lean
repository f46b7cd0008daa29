import Mathlib.Data.List.Nodup
import MarketMaking.Config.Loading
import MarketMaking.Proofs.Acceptance

/-!
# The layers of a configuration

Every parameter has a key in the document, a variable in the environment with the name of that key,
and a default. What it comes to be is decided by these three alone, in the same way for parameters
of the same kind.
-/

namespace MarketMaking

namespace Config

/-! ### Parameters -/

/-- The kinds of parameters. -/
inductive Kind where
  | number
  | count
  | policy
  | path
  deriving DecidableEq, Repr

/-- What a parameter of some kind may be. -/
abbrev Kind.Value : Kind → Type
  | number => Float
  | count => Nat
  | policy => HistoryOverflow
  | path => Option String

/-- What a text of the environment says to a parameter of some kind, if anything. Numbers and counts
are parsed, policies are named in letters of any case, and every text is a path. -/
def Kind.ofText? : (kind : Kind) → String → Option kind.Value
  | number => Decimal.readFloat?
  | count => Decimal.readNat?
  | policy => fun text ↦ HistoryOverflow.named? text.toLower
  | path => fun text ↦ some (some text)

/-- What a value of a document says to a parameter of some kind, if anything. -/
def Kind.ofValue? : (kind : Kind) → Toml.Value → Option kind.Value
  | number, .float x => some x
  | number, .integer n => some (Float.ofInt n)
  | count, .integer (.ofNat n) => some n
  | policy, value => HistoryOverflow.ofValue? value
  | path, .string text => some (some text)
  | path, .datetime d => some (some d.toText)
  | _, _ => none

/-- The parameters of a configuration. -/
inductive Parameter where
  | xi
  | gamma
  | delta
  | maxPosition
  | orderQty
  | calibrationWindow
  | calibrationCadence
  | historyCapacity
  | historyOverflow
  | volatilityNormalization
  | stepMillis
  | histogramBuckets
  | fitBuckets
  | statsPath
  deriving DecidableEq, Repr

namespace Parameter

/-- The key of a parameter in a document. -/
def key : Parameter → String
  | xi => "xi"
  | gamma => "gamma"
  | delta => "delta"
  | maxPosition => "max_position"
  | orderQty => "order_qty"
  | calibrationWindow => "calibration_window"
  | calibrationCadence => "calibration_cadence"
  | historyCapacity => "history_capacity"
  | historyOverflow => "history_overflow"
  | volatilityNormalization => "volatility_normalization"
  | stepMillis => "step_ms"
  | histogramBuckets => "histogram_buckets"
  | fitBuckets => "fit_buckets"
  | statsPath => "stats_csv_path"

/-- The variable of a parameter in the environment. -/
def setting : Parameter → String
  | xi => "GLFT_XI"
  | gamma => "GLFT_GAMMA"
  | delta => "GLFT_DELTA"
  | maxPosition => "GLFT_MAX_POSITION"
  | orderQty => "GLFT_ORDER_QTY"
  | calibrationWindow => "GLFT_CALIBRATION_WINDOW"
  | calibrationCadence => "GLFT_CALIBRATION_CADENCE"
  | historyCapacity => "GLFT_HISTORY_CAPACITY"
  | historyOverflow => "GLFT_HISTORY_OVERFLOW"
  | volatilityNormalization => "GLFT_VOLATILITY_NORMALIZATION"
  | stepMillis => "GLFT_STEP_MS"
  | histogramBuckets => "GLFT_HISTOGRAM_BUCKETS"
  | fitBuckets => "GLFT_FIT_BUCKETS"
  | statsPath => "GLFT_STATS_CSV_PATH"

/-- A variable is named after the key of its parameter. -/
theorem setting_eq (p : Parameter) : p.setting = "GLFT_" ++ p.key.toUpper := by
  cases p <;> decide +kernel

/-- The kind of a parameter. -/
def kind : Parameter → Kind
  | xi | gamma | delta | maxPosition | orderQty | volatilityNormalization => .number
  | historyOverflow => .policy
  | statsPath => .path
  | calibrationWindow | calibrationCadence | historyCapacity | stepMillis | histogramBuckets
  | fitBuckets => .count

/-- A parameter of a configuration. -/
def of (c : Config Float) : (p : Parameter) → p.kind.Value
  | xi => c.xi
  | gamma => c.gamma
  | delta => c.delta
  | maxPosition => c.maxPosition
  | orderQty => c.orderQty
  | calibrationWindow => c.calibrationWindow
  | calibrationCadence => c.calibrationCadence
  | historyCapacity => c.historyCapacity
  | historyOverflow => c.historyOverflow
  | volatilityNormalization => c.volatilityNormalization
  | stepMillis => c.stepMillis
  | histogramBuckets => c.histogramBuckets
  | fitBuckets => c.fitBuckets
  | statsPath => c.statsPath

/-- What the environment says to a parameter, if anything. -/
def ofEnvironment? (p : Parameter) (env : Environment) : Option p.kind.Value :=
  (env.get? p.setting).bind p.kind.ofText?

/-- What a table says to a parameter: the value under its key, or its default when there is no such
key; nothing when the value is of another kind. -/
def ofTable? (p : Parameter) (t : Toml.Table) : Option p.kind.Value :=
  (t.get? p.key).elim (some (p.of Config.default)) p.kind.ofValue?

/-- What a parameter comes to be: what the environment says or, when it says nothing, what the table
says. -/
def layered? (p : Parameter) (t : Toml.Table) (env : Environment) : Option p.kind.Value :=
  (p.ofEnvironment? env).or (p.ofTable? t)

/-- All parameters. -/
def all : List Parameter := [xi, gamma, delta, maxPosition, orderQty, calibrationWindow,
  calibrationCadence, historyCapacity, historyOverflow, volatilityNormalization, stepMillis,
  histogramBuckets, fitBuckets, statsPath]

private theorem mem_all (p : Parameter) : p ∈ all := by cases p <;> decide

/-- Every parameter has a variable of its own. -/
theorem setting_injective : Function.Injective setting := by
  intro p q
  exact List.inj_on_of_nodup_map (by decide +kernel) (mem_all p) (mem_all q)

private theorem ofEnvironment?_congr {p : Parameter} {env env' : Environment}
    (same : env'.get? p.setting = env.get? p.setting) :
    p.ofEnvironment? env' = p.ofEnvironment? env := by
  rw [ofEnvironment?, same, ofEnvironment?]

end Parameter

private theorem ext_of {c c' : Config Float} (same : ∀ p : Parameter, p.of c = p.of c') :
    c = c' := by
  cases c
  cases c'
  simp only [mk.injEq]
  exact ⟨same .xi, same .gamma, same .delta, same .maxPosition, same .orderQty,
    same .calibrationWindow, same .calibrationCadence, same .historyCapacity,
    same .historyOverflow, same .volatilityNormalization, same .stepMillis,
    same .histogramBuckets, same .fitBuckets, same .statsPath⟩

/-- A parameter that the environment says something to is replaced, and the others stay. -/
theorem of_override (c : Config Float) (env : Environment) (p : Parameter) :
    p.of (c.override env) = (p.ofEnvironment? env).getD (p.of c) := by
  cases p with
  | historyOverflow =>
    change (((env.get? "GLFT_HISTORY_OVERFLOW").map String.toLower).bind
      HistoryOverflow.named?).getD c.historyOverflow = ((env.get? "GLFT_HISTORY_OVERFLOW").bind
        fun text ↦ HistoryOverflow.named? text.toLower).getD c.historyOverflow
    cases env.get? "GLFT_HISTORY_OVERFLOW" <;> rfl
  | statsPath =>
    change (env.get? "GLFT_STATS_CSV_PATH").or c.statsPath =
      ((env.get? "GLFT_STATS_CSV_PATH").bind fun text ↦ some (some text)).getD c.statsPath
    cases env.get? "GLFT_STATS_CSV_PATH" <;> rfl
  | _ => rfl

section Table

variable (t : Toml.Table) (key : String)

private theorem float?_eq (fallback : Float) :
    t.float? key fallback = (t.get? key).elim (some fallback) Kind.number.ofValue? := by
  unfold Toml.Table.float?
  cases t.get? key with
  | none => rfl
  | some value => cases value <;> rfl

private theorem nat?_eq (fallback : Nat) :
    t.nat? key fallback = (t.get? key).elim (some fallback) Kind.count.ofValue? := by
  unfold Toml.Table.nat?
  cases t.get? key with
  | none => rfl
  | some value =>
    cases value with
    | integer n => cases n <;> rfl
    | _ => rfl

private theorem text?_eq : t.text? key = (t.get? key).elim (some none) Kind.path.ofValue? := by
  unfold Toml.Table.text?
  cases t.get? key with
  | none => rfl
  | some value => cases value <;> rfl

end Table

private theorem ofTable?_eq_some_iff {t : Toml.Table} {c : Config Float} :
    ofTable? t = some c ↔ ∀ p : Parameter, p.ofTable? t = some (p.of c) := by
  have hpolicy : Parameter.ofTable? .historyOverflow t =
      (t.get? "history_overflow").elim (some default.historyOverflow) HistoryOverflow.ofValue? :=
    rfl
  have hbind {α β : Type} (read : Option α) (rest : α → Option β) (b : β) :
      (read >>= rest) = some b ↔ ∃ a, read = some a ∧ rest a = some b := Option.bind_eq_some_iff
  -- The policy is the one parameter that is read in place, so its two cases are apart.
  cases hkey : t.get? "history_overflow"
  all_goals
    rw [hkey] at hpolicy
    simp only [ofTable?, hkey, float?_eq, nat?_eq, text?_eq, hbind, Option.pure_def]
    constructor
    · rintro ⟨_, hxi, _, hgamma, _, hdelta, _, hposition, _, hqty, _, hwindow, _, hcadence, _,
        hcapacity, _, hoverflow, _, hnormalization, _, hmillis, _, hbuckets, _, hfit, _, hpath,
        ⟨⟩⟩ p
      cases p with
      | historyOverflow => exact hpolicy.trans hoverflow
      | _ => assumption
    · intro h
      exact ⟨_, h .xi, _, h .gamma, _, h .delta, _, h .maxPosition, _, h .orderQty, _,
        h .calibrationWindow, _, h .calibrationCadence, _, h .historyCapacity, _,
        hpolicy.symm.trans (h .historyOverflow), _, h .volatilityNormalization, _, h .stepMillis, _,
        h .histogramBuckets, _, h .fitBuckets, _, h .statsPath, rfl⟩

/-! ### The layered configuration -/

/-- A table holds the parameters of a document: the one under `glft`, or the whole document when
there is none under that key. -/
inductive Holds : Toml.Value → Toml.Table → Prop where
  | nested {origin o : Toml.Origin} {entries es : List (String × Toml.Value)} :
      entries.lookup "glft" = some (.table o es) → Holds (.table origin entries) ⟨o, es⟩
  | whole {origin : Toml.Origin} {entries : List (String × Toml.Value)} :
      (∀ o es, entries.lookup "glft" ≠ some (.table o es)) →
        Holds (.table origin entries) ⟨origin, entries⟩

private theorem Holds.parameters?_eq {document : Toml.Value} {t : Toml.Table}
    (holds : Holds document t) : parameters? document = some t := by
  cases holds with
  | nested found => simp only [parameters?, found]
  | whole absent => simp only [parameters?]

variable {t : Toml.Table} {c : Config Float}

private theorem layered?_of_override (reads : ofTable? t = some c) (env : Environment)
    (p : Parameter) : p.layered? t env = some (p.of (c.override env)) := by
  rw [Parameter.layered?, of_override, ofTable?_eq_some_iff.mp reads p]
  cases p.ofEnvironment? env <;> rfl

private theorem override_congr {env env' : Environment}
    (same : ∀ p : Parameter, p.ofEnvironment? env' = p.ofEnvironment? env) :
    c.override env' = c.override env := by
  apply ext_of
  intro p
  rw [of_override, of_override, same]

/-- A configuration passes the check when it is accepted, and it is not changed. -/
theorem check_eq_ok_iff {c' : Config Float} : c.check = .ok c' ↔ c' = c ∧ c.Accepted := by
  rw [← defect?_eq_none_iff_accepted, check]
  cases c.defect? <;> simp [eq_comm]

/-- The environment is layered over the table that holds the parameters. -/
theorem ofDocument_eq {document : Toml.Value} (holds : Holds document t)
    (reads : ofTable? t = some c) (env : Environment) :
    ofDocument document env = (c.override env).check := by
  rw [ofDocument, holds.parameters?_eq, Option.bind_some, reads]

/-- Let `t` hold the parameters of a document, and let it read as `c`. Then each parameter comes to
be what its variable says or, when that is not set or says nothing, what its key in `t` says or else
its default. A configuration is loaded exactly when it is the one with these parameters and is
accepted, and a strategy starts on it. Other documents with `t` are loaded alike. A change of one
variable shows in its own parameter only, and not at all when the variable goes from a text that
says nothing to being unset. -/
theorem ofDocument_layered {document : Toml.Value} (holds : Holds document t)
    (reads : ofTable? t = some c) (env : Environment) :
    (∀ p : Parameter, p.layered? t env = some (p.of (c.override env))) ∧
    (∀ c', ofDocument document env = .ok c' ↔ c' = c.override env ∧ (c.override env).Accepted) ∧
    (∀ c', ofDocument document env = .ok c' → Strategy.start c' = .ok (Strategy.fresh c')) ∧
    (∀ text, Toml.parse? text = some document → ofText text env = ofDocument document env) ∧
    (∀ other, Holds other t → ofDocument other env = ofDocument document env) ∧
    ∀ (p : Parameter) (env' : Environment),
      (∀ name, name ≠ p.setting → env'.get? name = env.get? name) →
        (∀ q : Parameter, q ≠ p → q.of (c.override env') = q.of (c.override env)) ∧
        ∀ text, env.get? p.setting = some text → p.kind.ofText? text = none →
          env'.get? p.setting = none → ofDocument document env' = ofDocument document env := by
  have hloaded (c' : Config Float) :
      ofDocument document env = .ok c' ↔ c' = c.override env ∧ (c.override env).Accepted := by
    rw [ofDocument_eq holds reads, check_eq_ok_iff]
  refine ⟨layered?_of_override reads env, hloaded, ?_, ?_, ?_, ?_⟩
  · intro c' hok
    obtain ⟨rfl, accepted⟩ := (hloaded c').mp hok
    exact Strategy.start_eq_ok_iff.mpr ⟨accepted, rfl⟩
  · intro text parsed
    rw [ofText, parsed]
  · intro other holds'
    rw [ofDocument_eq holds' reads, ofDocument_eq holds reads]
  · intro p env' elsewhere
    have hsame (q : Parameter) (ne : q ≠ p) : q.ofEnvironment? env' = q.ofEnvironment? env :=
      Parameter.ofEnvironment?_congr (elsewhere _ (Parameter.setting_injective.ne ne))
    constructor
    · intro q ne
      rw [of_override, of_override, hsame q ne]
    · intro text set nothing unset
      have hp : p.ofEnvironment? env' = p.ofEnvironment? env := by
        rw [Parameter.ofEnvironment?, Parameter.ofEnvironment?, set, unset, Option.bind_some,
          nothing, Option.bind_none]
      have hall (q : Parameter) : q.ofEnvironment? env' = q.ofEnvironment? env := by
        by_cases heq : q = p
        · rw [heq, hp]
        · exact hsame q heq
      rw [ofDocument_eq holds reads, ofDocument_eq holds reads, override_congr hall]

/-- A document with a table under `glft` and a key beside it that is of no use, in an environment
with a variable that parses and one that does not. -/
theorem ofDocument_layered_of_nested :
    let t : Toml.Table := ⟨.header, [("xi", .float 0.1), ("step_ms", .integer 250)]⟩
    let document : Toml.Value := .table .header [("gamma", .boolean true), ("glft", t.toValue)]
    let c : Config Float := { default with xi := 0.1, stepMillis := 250 }
    let env : Environment := [("GLFT_XI", "0.2"), ("GLFT_STEP_MS", "fast")]
    Holds document t ∧ ofTable? t = some c ∧
      ofDocument document env = .ok (c.override env) ∧
      Strategy.start (c.override env) = .ok (Strategy.fresh (c.override env)) ∧
      Parameter.layered? .stepMillis t env = some (250 : Nat) ∧
      ofDocument document [("GLFT_XI", "0.2")] = ofDocument document env := by
  intro t document c env
  have holds : Holds document t := .nested rfl
  have reads : ofTable? t = some c := rfl
  have accepted : (c.override env).Accepted :=
    (defect?_eq_none_iff_accepted _).mp (by decide +kernel)
  obtain ⟨hlayered, hloaded, hstarts, -, -, hframe⟩ := ofDocument_layered holds reads env
  have hok : ofDocument document env = .ok (c.override env) := (hloaded _).mpr ⟨rfl, accepted⟩
  have elsewhere (name : String) (ne : name ≠ "GLFT_STEP_MS") :
      Environment.get? [("GLFT_XI", "0.2")] name = env.get? name := by
    simp [env, Environment.get?, List.lookup_cons, beq_false_of_ne ne]
  have hunset := (hframe .stepMillis _ elsewhere).2 "fast" rfl (by decide +kernel) rfl
  exact ⟨holds, reads, hok, hstarts _ hok, (hlayered .stepMillis).trans rfl, hunset⟩

end Config

end MarketMaking
