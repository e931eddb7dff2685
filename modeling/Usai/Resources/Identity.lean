import Mathlib.Data.List.Basic

/-! The identity of a resource (`resource/mod.rs`): what `ResourceIdentity`
hashes, which variables the providers' `open` reads, and when the hashed text
pins them. -/

namespace Usai.Resources

open List

abbrev Env := String → Option String

structure PostgresConfig where
  urlEnv : Option String
  caFile : Option String
  bigint : Option String
  deriving DecidableEq, Repr

structure HttpTlsConfig where
  caFile : Option String
  caFileEnv : Option String
  clientCertFile : Option String
  clientCertFileEnv : Option String
  clientKeyFile : Option String
  clientKeyFileEnv : Option String
  deriving DecidableEq, Repr

structure HttpClientConfig where
  baseUrl : Option String
  baseUrlEnv : Option String
  bearerTokenEnv : Option String
  tls : HttpTlsConfig
  deriving DecidableEq, Repr

/-- The JSON library: the text of a configuration, the value that stands at the
front of a text, and the configurations of the providers. -/
structure Serde (Config : Type) where
  toVec : Config → List Char
  front : List Char → Option (Config × List Char)
  front_toVec : ∀ config rest, front (toVec config ++ rest) = some (config, rest)
  optional : Config → Bool
  postgres : Config → Option PostgresConfig
  httpClient : Config → Option HttpClientConfig

structure ResourceSpec (Config : Type) where
  name : String
  kind : String
  config : Config
  env : List String

structure ResourceIdentity where
  kind : String
  name : String
  fingerprint : String
  compat : Nat
  deriving DecidableEq, Repr

def envLines (env : Env) : List String → List Char
  | [] => []
  | name :: names =>
    name.toList ++ '=' :: (((env name).getD "").toList ++ '\n' :: envLines env names)

section

variable {Config : Type} (serde : Serde Config) (digest : List Char → String)

def hashed (spec : ResourceSpec Config) (env : Env) : List Char :=
  serde.toVec spec.config ++ envLines env spec.env

def shortDigest (text : List Char) : String := String.ofList ((digest text).toList.take 16)

def ResourceIdentity.compute (spec : ResourceSpec Config) (env : Env) (compat : Nat) :
    ResourceIdentity :=
  ⟨spec.kind, spec.name, shortDigest digest (hashed serde spec env), compat⟩

end

def PostgresConfig.reads (config : PostgresConfig) : List String :=
  if config.bigint = none ∨ config.bigint = some "number" ∨ config.bigint = some "string" then
    config.urlEnv.getD "DATABASE_URL" ::
      (if config.caFile = none then ["PGSSLROOTCERT"] else [])
  else []

def pathReads (literal named : Option String) : List String :=
  if literal = none then named.toList else []

def HttpClientConfig.reads (config : HttpClientConfig) : List String :=
  (if config.baseUrl = none then config.baseUrlEnv.toList else []) ++
    config.bearerTokenEnv.toList ++
    pathReads config.tls.caFile config.tls.caFileEnv ++
    pathReads config.tls.clientCertFile config.tls.clientCertFileEnv ++
    pathReads config.tls.clientKeyFile config.tls.clientKeyFileEnv

def ResourceSpec.reads {Config : Type} (serde : Serde Config) (spec : ResourceSpec Config) :
    List String :=
  match spec.kind with
  | "postgres" => ((serde.postgres spec.config).getD ⟨none, none, none⟩).reads
  | "http.client" => ((serde.httpClient spec.config).map HttpClientConfig.reads).getD []
  | _ => []

theorem envLines_congr (same : ∀ name ∈ names, (one name).getD "" = (two name).getD "") :
    envLines one names = envLines two names := by
  induction names with
  | nil => rfl
  | cons name _ ih =>
    have here := same name mem_cons_self
    have rest := ih (fun other member => same other (mem_cons_of_mem name member))
    simp only [envLines, here, rest]

theorem envLines_ends (env : Env) (name : String) (names : List String) :
    ∃ body, envLines env (name :: names) = body ++ ['\n'] := by
  induction names generalizing name with
  | nil => exact ⟨name.toList ++ '=' :: ((env name).getD "").toList, by simp [envLines]⟩
  | cons next _ ih =>
    obtain ⟨body, ends⟩ := ih next
    refine ⟨name.toList ++ '=' :: (((env name).getD "").toList ++ '\n' :: body), ?_⟩
    rw [envLines, ends]
    simp

theorem count_envLines (env : Env) (names : List String) :
    names.length ≤ (envLines env names).count '=' := by
  induction names with
  | nil => exact Nat.zero_le _
  | cons =>
    simp only [envLines, length_cons, count_append, count_cons]
    simp
    omega

theorem cut_unique (plain : '=' ∉ name) (clear : '=' ∉ value)
    (same : other ++ '=' :: text = name ++ '=' :: value) : other = name ∧ text = value := by
  have whole : (other ++ '=' :: text).count '=' = 1 := by
    rw [same]
    simp [count_eq_zero_of_not_mem plain, count_eq_zero_of_not_mem clear]
  have front : '=' ∉ other := by
    intro member
    have positive := count_pos_iff.mpr member
    simp only [count_append, count_cons_self] at whole
    omega
  have index := congrArg (idxOf '=') same
  rw [idxOf_append_of_notMem front, idxOf_append_of_notMem plain] at index
  have lengths : other.length = name.length := by simpa using index
  obtain ⟨names, values⟩ := append_inj same lengths
  exact ⟨names, cons.inj values |>.2⟩

section

variable {Config : Type} (serde : Serde Config) (digest : List Char → String)

/-- The identity of the declaration in the environment determines both, as far
as the provider looks at them: any declaration of the same kind and name and
any environment with that identity has the same configuration and the same
variables, where the digest does not collide. -/
def Determined (spec : ResourceSpec Config) (env : Env) (compat : Nat) : Prop :=
  ∀ (other : ResourceSpec Config) (env' : Env), other.kind = spec.kind → other.name = spec.name →
    (shortDigest digest (hashed serde other env') = shortDigest digest (hashed serde spec env) →
      hashed serde other env' = hashed serde spec env) →
    ResourceIdentity.compute serde digest other env' compat =
      ResourceIdentity.compute serde digest spec env compat →
    other.config = spec.config ∧ ∀ name ∈ spec.reads serde, env' name = env name

/-- The provider reads nothing, or one variable that is the only one listed, is
set to a text that is not empty, and neither holds the separator: a declaration
lists any text as a name, also one with `=` in it. -/
def Pinned (spec : ResourceSpec Config) (env : Env) : Prop :=
  spec.reads serde = [] ∨
    ∃ name value, spec.env = [name] ∧ (∀ read ∈ spec.reads serde, read = name) ∧
      env name = some value ∧ value ≠ "" ∧ '=' ∉ name.toList ∧ '=' ∉ value.toList

def toggle : Option String → Option String
  | none => some ""
  | some _ => none

theorem toggle_ne (value : Option String) : toggle value ≠ value := by
  cases value <;> simp [toggle]

variable {serde digest}

variable {spec : ResourceSpec Config} {env : Env} {compat : Nat} {names : List String}
  {name value read : String}

theorem Determined.agree (determined : Determined serde digest spec env compat)
    (same : envLines env' names = envLines env spec.env) :
    ∀ name ∈ spec.reads serde, env' name = env name := by
  have equal : hashed serde { spec with env := names } env' = hashed serde spec env := by
    simp only [hashed, same]
  refine (determined { spec with env := names } env' rfl rfl (fun _ => equal) ?_).2
  simp only [ResourceIdentity.compute, equal]

def moved (env : Env) (name value : String) : Env :=
  fun other => if other = name then some value else toggle (env other)

theorem moved_agrees
    (agrees : moved env name value read = env read) : read = name ∧ env name = some value := by
  unfold moved at agrees
  split at agrees
  · rename_i same
    exact ⟨same, same ▸ agrees.symm⟩
  · exact absurd agrees (toggle_ne _)

section

variable (determined : Determined serde digest spec env compat)
include determined

theorem Determined.listed :
    ∀ read ∈ spec.reads serde, read ∈ spec.env := by
  intro read member
  by_contra unlisted
  let env' : Env := fun name => if name = read then toggle (env read) else env name
  have same : envLines env' spec.env = envLines env spec.env := by
    refine envLines_congr (fun name listed => ?_)
    have other : name ≠ read := fun equal => unlisted (equal ▸ listed)
    simp only [env', if_neg other]
  have agrees := determined.agree same read member
  simp only [env', if_true] at agrees
  exact toggle_ne _ agrees

theorem Determined.nonempty
    (member : read ∈ spec.reads serde) : ∃ value, env read = some value ∧ value ≠ "" := by
  by_contra blank
  have empty : (env read).getD "" = "" := by
    cases found : env read with
    | none => rfl
    | some value =>
      by_contra full
      exact blank ⟨value, found, full⟩
  have toggled : (toggle (env read)).getD "" = "" := by
    cases env read <;> rfl
  let env' : Env := fun name => if name = read then toggle (env read) else env name
  have same : envLines env' spec.env = envLines env spec.env := by
    refine envLines_congr (fun name _ => ?_)
    by_cases equal : name = read
    · simp only [env', equal, if_true, toggled, empty]
    · simp only [env', if_neg equal]
  have agrees := determined.agree same read member
  simp only [env', if_true] at agrees
  exact toggle_ne _ agrees

theorem Determined.single (member : read ∈ spec.reads serde) :
    spec.env ≠ first :: second :: names := by
  intro several
  obtain ⟨body, ends⟩ := envLines_ends env second names
  let value := String.ofList (((env first).getD "").toList ++ '\n' :: body)
  have whole : envLines env (first :: second :: names) = first.toList ++
      '=' :: (((env first).getD "").toList ++ '\n' :: (body ++ ['\n'])) := by
    rw [envLines, ends]
  have same : envLines (moved env first value) [first] = envLines env spec.env := by
    rw [several, whole]
    simp [envLines, moved, value]
  obtain ⟨-, found⟩ := moved_agrees (determined.agree same read member)
  have lengths := congrArg String.length (congrArg (fun value => value.getD "") found)
  simp [value] at lengths

theorem Determined.noSeparator (member : name ∈ spec.reads serde) (single : spec.env = [name])
    (found : env name = some value) : '=' ∉ name.toList ∧ '=' ∉ value.toList := by
  constructor
  · intro separator
    obtain ⟨front, back, cut⟩ := append_of_mem separator
    let wider := String.ofList (back ++ '=' :: value.toList)
    have same : envLines (moved env (String.ofList front) wider) [String.ofList front] =
        envLines env spec.env := by
      rw [single]
      simp [envLines, moved, wider, cut, found]
    obtain ⟨equal, -⟩ := moved_agrees (determined.agree same name member)
    have lengths := congrArg length cut
    rw [equal] at lengths
    simp at lengths
  · intro separator
    obtain ⟨front, back, cut⟩ := append_of_mem separator
    let wider := String.ofList (name.toList ++ '=' :: front)
    have same : envLines (moved env wider (String.ofList back)) [wider] =
        envLines env spec.env := by
      rw [single]
      simp [envLines, moved, wider, cut, found]
    obtain ⟨equal, -⟩ := moved_agrees (determined.agree same name member)
    have lengths := congrArg String.length equal
    simp [wider] at lengths

end

theorem envLines_single
    (found : env name = some value) (plain : '=' ∉ name.toList) (clear : '=' ∉ value.toList)
    (same : envLines env' names = envLines env [name]) :
    names = [name] ∧ (env' name).getD "" = value := by
  have count : (envLines env [name]).count '=' = 1 := by
    simp [envLines, found, count_eq_zero_of_not_mem plain, count_eq_zero_of_not_mem clear]
  have few := count_envLines env' names
  rw [same, count] at few
  match names with
  | [] => simp [envLines] at same
  | [other] =>
    have lines : other.toList ++ '=' :: ((env' other).getD "").toList =
        name.toList ++ '=' :: value.toList := by
      have ends : (other.toList ++ '=' :: ((env' other).getD "").toList) ++ ['\n'] =
          (name.toList ++ '=' :: value.toList) ++ ['\n'] := by
        simpa [envLines, found] using same
      exact append_cancel_right ends
    obtain ⟨names, values⟩ := cut_unique plain clear lines
    have equal := String.toList_inj.mp names
    subst equal
    exact ⟨rfl, String.toList_inj.mp values⟩
  | _ :: _ :: _ => simp at few

/-- The identity determines the configuration and what the provider reads
exactly when what it reads is pinned. -/
theorem identity_determines (spec : ResourceSpec Config) (env : Env) (compat : Nat) :
    Determined serde digest spec env compat ↔ Pinned serde spec env := by
  constructor
  · intro determined
    match reads : spec.reads serde with
    | [] => exact .inl reads
    | read :: others =>
      have member : read ∈ spec.reads serde := reads ▸ mem_cons_self
      have listed := determined.listed
      match names : spec.env with
      | [] => exact absurd (listed read member) (names ▸ not_mem_nil)
      | [name] =>
        have only : ∀ read ∈ spec.reads serde, read = name := by
          intro read member
          exact mem_singleton.mp (names ▸ listed read member)
        have here : name ∈ spec.reads serde := only read member ▸ member
        obtain ⟨value, found, full⟩ := determined.nonempty here
        obtain ⟨plain, clear⟩ := determined.noSeparator here names found
        exact .inr ⟨name, value, names, only, found, full, plain, clear⟩
      | first :: second :: rest => exact absurd names (determined.single member)
  · intro pinned other env' _ _ noCollision identities
    have equal := noCollision (congrArg ResourceIdentity.fingerprint identities)
    have fronts := congrArg serde.front equal
    simp only [hashed, serde.front_toVec, Option.some.injEq, Prod.mk.injEq] at fronts
    refine ⟨fronts.1, ?_⟩
    rcases pinned with nothing | ⟨name, _, single, only, found, full, plain, clear⟩
    · intro read member
      rw [nothing] at member
      cases member
    · intro read member
      rw [only read member]
      obtain ⟨-, values⟩ := envLines_single found plain clear (single ▸ fronts.2)
      rw [found]
      cases set : env' name with
      | none =>
        rw [set] at values
        exact absurd values.symm full
      | some =>
        rw [set] at values
        exact congrArg some values

def emptyObjects : Serde Unit where
  toVec _ := ['{', '}']
  front
    | '{' :: '}' :: rest => some ((), rest)
    | _ => none
  front_toVec _ _ := rfl
  optional _ := false
  postgres _ := some ⟨none, none, none⟩
  httpClient _ := none

def mainDatabase : ResourceSpec Unit := ⟨"main", "postgres", (), ["DATABASE_URL"]⟩

def deployment (root : Option String) : Env
  | "DATABASE_URL" => some "postgres://db/app"
  | "PGSSLROOTCERT" => root
  | _ => none

/-- The variable that the provider of `postgres` reads beside the URL is not
pinned by the identity. -/
theorem identity_leaves_trust_root_open :
    ¬ Determined emptyObjects String.ofList mainDatabase (deployment none) 1 := by
  intro determined
  -- two deployments that trust different roots share one identity
  have agrees := (determined mainDatabase (deployment (some "/etc/ca.pem")) rfl rfl
    (fun _ => rfl) rfl).2 "PGSSLROOTCERT" (by decide)
  cases agrees

end

end Usai.Resources
