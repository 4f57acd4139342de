import OpenaiAuth.Redaction.Numbers
import OpenaiAuth.VersionFence.Order

/-! # The migration fence

One run of `migrationFenceOpen`, with what each call of the system answers to it. A record
is looked at once, so an answer is found by the path of its record.

Main results: `migrationFenceOpen_shut`, a process that runs an older version keeps the
fence shut, and `compareVersions_precedence`.
-/

namespace VersionFence

open Js

/-! ## Model -/

structure SystemError where
  code : Option Units
  /-- `String(error)` -/
  text : Units
deriving DecidableEq, Repr

/-- What the system answers. -/
structure World where
  join : List Units → Units
  homedir : Units
  xdgStateHome : Option Units
  processPid : ℕ
  hasLegacyRuntimeGeneration : Bool
  isOpenaiRpcStateDir : Units → Bool
  readdir : Units → Except SystemError (List Units)
  readFile : Units → Except SystemError Units
  /-- The time a file was last written; nothing where `stat` fails. -/
  mtime : Units → Option Number
  /-- What `isAlive` says of a pid when the record at a path is looked at; nothing where it
  throws. -/
  isAlive : Units → ℕ → Option Bool
  now : Number
  uptime : Number

structure VersionFenceOptions where
  stateHome : Option Units
  rpcDir : Option Units
  currentVersion : Units
  selfPid : Option ℕ
  layoutMove : Bool
deriving DecidableEq, Repr

structure VersionFenceBlocker where
  /-- `'unknown'` for a directory that cannot be read. -/
  pid : Option ℕ
  version : Units
  detail : Units
deriving DecidableEq, Repr

inductive VersionFenceResult where
  | opened
  | shut (blockers : List VersionFenceBlocker)
deriving DecidableEq, Repr

section

variable (world : World)

def defaultStateHome : Units :=
  match world.xdgStateHome with
  | some (c :: rest) => c :: rest
  | _ => world.join [world.homedir, Units.of ".local", Units.of "state"]

def processHeartbeatDir (stateHome : Option Units) : Units :=
  world.join [stateHome.getD (defaultStateHome world), Units.of "cortexkit",
    Units.of "openai-auth", Units.of "processes"]

def rpcStateRoot (stateHome : Option Units) : Units :=
  world.join [stateHome.getD (defaultStateHome world), Units.of "cortexkit",
    Units.of "openai-auth", Units.of "rpc"]

inductive Listing where
  | ok (names : List Units)
  | failed (code : Option Units) (error : Units)
deriving DecidableEq, Repr

def list (dir : Units) : Listing :=
  match world.readdir dir with
  | .ok names => .ok names
  | .error error =>
      if error.code = some (Units.of "ENOENT") then .ok []
      else .failed error.code (dir ++ Units.of ": " ++ error.text)

def Listing.names : Listing → List Units
  | .ok names => names
  | .failed _ _ => []

/-- The number that a numeral of a file is read as. -/
def jsonNumber (fields : Parse.NumberFields) : Number := Number.toDouble fields.value

inductive ProcessRecord where
  | gone
  | unreadable
  | ok (version : Units) (startedAt : Option Parse.Value) (layouts : Option Parse.Value)

def unknown : Units := Units.of "unknown"

/-- `value.pid === pid` -/
def namesPid (value : Parse.Value) (pid : ℕ) : Bool :=
  match value.get? (Units.of "pid") with
  | some (.number fields) => jsonNumber fields = .finite pid
  | _ => false

def readProcessRecord (path : Units) (pid : ℕ) : ProcessRecord :=
  match world.readFile path with
  | .error error => if error.code = some (Units.of "ENOENT") then .gone else .unreadable
  | .ok text =>
      match Parse.parse text with
      | none => .unreadable
      | some value =>
          if namesPid value pid then
            .ok
              (match value.get? (Units.of "version") with
                | some (.string version) => version
                | _ => unknown)
              (value.get? (Units.of "startedAt"))
              (match value.get? (Units.of "layouts") with
                | some (.object layouts) => some (.object layouts)
                | _ => none)
          else .unreadable

/-- `Object.values(layouts).includes('legacy')` -/
def hasLegacy : Parse.Value → Bool
  | .object members => members.any fun member =>
      match (Parse.Value.object members).get? member.1 with
      | some (.string layout) => layout = Units.of "legacy"
      | _ => false
  | _ => false

/-- The boot of the system, less the margin of five minutes; each step is rounded. -/
def staleBefore : Number :=
  let boot := (world.now.sub (world.uptime.mul (.finite 1000)).rounded).rounded
  (boot.sub (.finite (5 * 60 * 1000))).rounded

def staleByBoot (time : Option Number) : Bool :=
  time.any fun time => time.finite?.isSome && time.lt (staleBefore world)

/-- The number that a value is, if it is one. -/
def timeOf : Option Parse.Value → Option Number
  | some (.number fields) => some (jsonNumber fields)
  | _ => none

def alive (path : Units) (pid : ℕ) : Bool := (world.isAlive path pid).getD true

/-- The pid in `<lead><digits>.json`. No number from `2 ^ 53` on is rounded to a safe one. -/
def pidFrom (lead name : Units) : Option ℕ :=
  let digits := (name.drop lead.length).takeWhile Parse.isDigit
  let pid := Parse.decimal digits
  if name = lead ++ digits ++ Units.of ".json" ∧ digits ≠ [] ∧ 1 ≤ pid ∧ pid ≤ 2 ^ 53 - 1 then
    some pid
  else none

end

/-- The blockers so far, and the stale heartbeats that were removed. -/
structure Scan where
  blockers : List VersionFenceBlocker
  removed : List Units
deriving DecidableEq, Repr

/-- The key of the map; a number is no text. -/
def VersionFenceBlocker.key (blocker : VersionFenceBlocker) : ℕ ⊕ Units :=
  match blocker.pid with
  | none => .inr (Units.of "dir:" ++ blocker.detail)
  | some pid => .inl pid

def Scan.block (scan : Scan) (entry : VersionFenceBlocker) : Scan :=
  if scan.blockers.any fun blocker => blocker.key = entry.key then scan
  else { scan with blockers := scan.blockers ++ [entry] }

/-- `order === undefined || order < 0` -/
def isBehind (version currentVersion : Units) : Bool :=
  match compareVersions version currentVersion with
  | none => true
  | some order => order.lt (.finite 0)

section

variable (world : World) (options : VersionFenceOptions)

def selfPid : ℕ := options.selfPid.getD world.processPid

/-- A directory that cannot be read is a blocker. -/
def Scan.blockListing (scan : Scan) : Listing → Scan
  | .ok _ => scan
  | .failed _ error => scan.block { pid := none, version := unknown, detail := error }

def scanGeneration (scan : Scan) : Scan :=
  if options.layoutMove && selfPid world options = world.processPid &&
      world.hasLegacyRuntimeGeneration then
    scan.block
      { pid := some (selfPid world options)
        version := unknown
        detail := Units.of "an older plugin generation ran in this process" }
  else scan

def scanHeartbeat (scan : Scan) (name : Units) : Scan :=
  match pidFrom [] name with
  | none => scan
  | some pid =>
      if pid = selfPid world options then scan
      else
        let path := world.join [processHeartbeatDir world options.stateHome, name]
        match readProcessRecord world path pid with
        | .gone => scan
        | .unreadable =>
            if alive world path pid then
              scan.block { pid := some pid, version := unknown, detail := path }
            else scan
        | .ok version startedAt layouts =>
            if staleByBoot world (timeOf startedAt) then
              { scan with removed := scan.removed ++ [path] }
            else if !alive world path pid then scan
            else if isBehind version options.currentVersion then
              scan.block { pid := some pid, version, detail := path }
            else if options.layoutMove && layouts.all hasLegacy then
              scan.block { pid := some pid, version, detail := path }
            else scan

def scanHeartbeats (scan : Scan) : Scan :=
  let heartbeats := list world (processHeartbeatDir world options.stateHome)
  heartbeats.names.foldl (scanHeartbeat world options) (scan.blockListing heartbeats)

def rpcRoot : Units := options.rpcDir.getD (rpcStateRoot world options.stateHome)

/-- Writers of older versions leave `startedAt` out. -/
def portTime (path : Units) : Option Parse.Value → Option Number
  | none => world.mtime path
  | startedAt => timeOf startedAt

def scanPort (dir : Units) (scan : Scan) (name : Units) : Scan :=
  match pidFrom (Units.of "port-") name with
  | none => scan
  | some pid =>
      let path := world.join [dir, name]
      if pid = selfPid world options || !alive world path pid then scan
      else
        match readProcessRecord world path pid with
        | .gone => scan
        | .unreadable =>
            if isBehind unknown options.currentVersion then
              scan.block { pid := some pid, version := unknown, detail := path }
            else scan
        | .ok version startedAt _ =>
            if staleByBoot world (portTime world path startedAt) then scan
            else if isBehind version options.currentVersion then
              scan.block { pid := some pid, version, detail := path }
            else scan

def scanProject (scan : Scan) (project : Units) : Scan :=
  if world.isOpenaiRpcStateDir project then
    let dir := world.join [rpcRoot world options, project]
    match list world dir with
    | .failed code error =>
        -- a plain file with a directory's name
        if code = some (Units.of "ENOTDIR") then scan
        else scan.block { pid := none, version := unknown, detail := error }
    | .ok names => names.foldl (scanPort world options dir) scan
  else scan

def scanProjects (scan : Scan) : Scan :=
  let projects := list world (rpcRoot world options)
  projects.names.foldl (scanProject world options) (scan.blockListing projects)

def scanned : Scan :=
  scanProjects world options
    (scanHeartbeats world options (scanGeneration world options { blockers := [], removed := [] }))

end

/-- By pid, a directory last. -/
def VersionFenceBlocker.rank (blocker : VersionFenceBlocker) : WithTop ℕ :=
  match blocker.pid with
  | none => ⊤
  | some pid => (pid : WithTop ℕ)

def migrationFenceOpen (world : World) (options : VersionFenceOptions) : VersionFenceResult :=
  let blockers := (scanned world options).blockers
  if blockers = [] then .opened
  else .shut (blockers.mergeSort fun a b => decide (a.rank ≤ b.rank))

/-! ## A blocked process stays blocked -/

def Scan.Blocks (scan : Scan) (pid : ℕ) : Prop :=
  ∃ blocker ∈ scan.blockers, blocker.pid = some pid

theorem key_pid {a b : VersionFenceBlocker} (h : a.key = b.key) {pid : ℕ} (hb : b.pid = some pid) :
    a.pid = some pid := by
  unfold VersionFenceBlocker.key at h
  rw [hb] at h
  split at h
  · cases h
  · rename_i ha
    rw [ha, Sum.inl.inj h]

theorem Scan.block_keeps {scan : Scan} {pid : ℕ} (h : scan.Blocks pid) (entry : VersionFenceBlocker) :
    (scan.block entry).Blocks pid := by
  rw [Scan.block]
  split
  · exact h
  · obtain ⟨blocker, hmem, hpid⟩ := h
    exact ⟨blocker, List.mem_append_left _ hmem, hpid⟩

theorem Scan.block_blocks (scan : Scan) {entry : VersionFenceBlocker} {pid : ℕ}
    (hpid : entry.pid = some pid) : (scan.block entry).Blocks pid := by
  rw [Scan.block]
  split
  · rename_i hsame
    obtain ⟨blocker, hmem, hkey⟩ := List.any_eq_true.mp hsame
    exact ⟨blocker, hmem, key_pid (of_decide_eq_true hkey) hpid⟩
  · exact ⟨entry, List.mem_append_right _ List.mem_cons_self, hpid⟩

theorem Scan.blockListing_keeps {scan : Scan} {pid : ℕ} (h : scan.Blocks pid) (listing : Listing) :
    (scan.blockListing listing).Blocks pid := by
  cases listing with
  | ok names => exact h
  | failed code error => exact Scan.block_keeps h _

section

variable {step : Scan → Units → Scan} {pid : ℕ}

theorem foldl_keeps (hstep : ∀ scan name, scan.Blocks pid → (step scan name).Blocks pid)
    {names : List Units} {scan : Scan} (h : scan.Blocks pid) :
    (names.foldl step scan).Blocks pid := by
  induction names generalizing scan with
  | nil => exact h
  | cons name names ih => exact ih (hstep scan name h)

/-- One name that blocks is enough. -/
theorem foldl_blocks (hstep : ∀ scan name, scan.Blocks pid → (step scan name).Blocks pid)
    {names : List Units} {name : Units} (hname : name ∈ names)
    (hblocks : ∀ scan, (step scan name).Blocks pid) (scan : Scan) :
    (names.foldl step scan).Blocks pid := by
  obtain ⟨before, after, rfl⟩ := List.append_of_mem hname
  rw [List.foldl_append, List.foldl_cons]
  exact foldl_keeps hstep (hblocks _)

end

section

variable {world : World} {options : VersionFenceOptions} {scan : Scan} {pid : ℕ}

theorem scanHeartbeat_keeps (h : scan.Blocks pid) (name : Units) :
    (scanHeartbeat world options scan name).Blocks pid := by
  unfold scanHeartbeat
  split
  · exact h
  · dsimp only
    split
    · exact h
    · split
      · exact h
      · split
        · exact Scan.block_keeps h _
        · exact h
      · -- a removed file is no blocker
        split
        · exact h
        · split
          · exact h
          · split
            · exact Scan.block_keeps h _
            · split
              · exact Scan.block_keeps h _
              · exact h

theorem scanPort_keeps (h : scan.Blocks pid) (dir name : Units) :
    (scanPort world options dir scan name).Blocks pid := by
  unfold scanPort
  split
  · exact h
  · dsimp only
    split
    · exact h
    · split
      · exact h
      · split
        · exact Scan.block_keeps h _
        · exact h
      · split
        · exact h
        · split
          · exact Scan.block_keeps h _
          · exact h

theorem scanProject_keeps (h : scan.Blocks pid) (project : Units) :
    (scanProject world options scan project).Blocks pid := by
  unfold scanProject
  split
  · dsimp only
    split
    · split
      · exact h
      · exact Scan.block_keeps h _
    · exact foldl_keeps (fun scan name h => scanPort_keeps h _ name) h
  · exact h

theorem scanProjects_keeps (h : scan.Blocks pid) : (scanProjects world options scan).Blocks pid :=
  foldl_keeps (fun _ project h => scanProject_keeps h project) (Scan.blockListing_keeps h _)

/-! ## What a live process shows -/

variable (world options pid) in
/-- A live process of another pid has a record of this boot that names its version. -/
inductive Shown (version : Units) : Prop
  | heartbeat {name : Units} {startedAt layouts : Option Parse.Value}
      (hname : name ∈ (list world (processHeartbeatDir world options.stateHome)).names)
      (hpid : pidFrom [] name = some pid) (hself : pid ≠ selfPid world options)
      (hread : readProcessRecord world
        (world.join [processHeartbeatDir world options.stateHome, name]) pid =
          .ok version startedAt layouts)
      (hfresh : staleByBoot world (timeOf startedAt) = false)
      (halive : alive world (world.join [processHeartbeatDir world options.stateHome, name]) pid =
        true)
  | port {project name : Units} {startedAt layouts : Option Parse.Value}
      (hproject : project ∈ (list world (rpcRoot world options)).names)
      (hdir : world.isOpenaiRpcStateDir project = true)
      (hname : name ∈ (list world (world.join [rpcRoot world options, project])).names)
      (hpid : pidFrom (Units.of "port-") name = some pid) (hself : pid ≠ selfPid world options)
      (hread : readProcessRecord world
        (world.join [world.join [rpcRoot world options, project], name]) pid =
          .ok version startedAt layouts)
      (hfresh : staleByBoot world (portTime world
        (world.join [world.join [rpcRoot world options, project], name]) startedAt) = false)
      (halive : alive world (world.join [world.join [rpcRoot world options, project], name]) pid =
        true)

theorem scanHeartbeat_blocks {name version : Units} {startedAt layouts : Option Parse.Value}
    (hpid : pidFrom [] name = some pid) (hself : pid ≠ selfPid world options)
    (hread : readProcessRecord world
      (world.join [processHeartbeatDir world options.stateHome, name]) pid =
        .ok version startedAt layouts)
    (hfresh : staleByBoot world (timeOf startedAt) = false)
    (halive : alive world (world.join [processHeartbeatDir world options.stateHome, name]) pid = true)
    (hbehind : isBehind version options.currentVersion = true) (scan : Scan) :
    (scanHeartbeat world options scan name).Blocks pid := by
  unfold scanHeartbeat
  simp only [hpid, hread]
  rw [if_neg hself, hfresh, halive, hbehind]
  exact Scan.block_blocks scan rfl

theorem scanPort_blocks {dir name version : Units} {startedAt layouts : Option Parse.Value}
    (hpid : pidFrom (Units.of "port-") name = some pid) (hself : pid ≠ selfPid world options)
    (hread : readProcessRecord world (world.join [dir, name]) pid = .ok version startedAt layouts)
    (hfresh : staleByBoot world (portTime world (world.join [dir, name]) startedAt) = false)
    (halive : alive world (world.join [dir, name]) pid = true)
    (hbehind : isBehind version options.currentVersion = true) (scan : Scan) :
    (scanPort world options dir scan name).Blocks pid := by
  unfold scanPort
  simp only [hpid, hread]
  rw [halive, hfresh, hbehind, decide_eq_false hself]
  exact Scan.block_blocks scan rfl

theorem scanned_blocks {version : Units} (h : Shown world options pid version)
    (hbehind : isBehind version options.currentVersion = true) : (scanned world options).Blocks pid := by
  cases h with
  | heartbeat hname hpid hself hread hfresh halive =>
      -- found among the heartbeats; the port files come after them
      apply scanProjects_keeps
      exact foldl_blocks (fun _ other h => scanHeartbeat_keeps h other) hname
        (scanHeartbeat_blocks hpid hself hread hfresh halive hbehind) _
  | @port project name startedAt layouts hproject hdir hname hpid hself hread hfresh halive =>
      have hblocks : ∀ scan, (scanProject world options scan project).Blocks pid := by
        intro scan
        unfold scanProject
        rw [if_pos hdir]
        dsimp only
        split
        · rename_i hlist
          rw [hlist] at hname
          cases hname
        · rename_i names hlist
          rw [hlist] at hname
          exact foldl_blocks (fun _ other h => scanPort_keeps h _ other) hname
            (scanPort_blocks hpid hself hread hfresh halive hbehind) scan
      exact foldl_blocks (fun _ other h => scanProject_keeps h other) hproject hblocks _

/-- A live process whose version is behind keeps the fence shut, by its pid. -/
theorem migrationFenceOpen_shut {version : Units} (h : Shown world options pid version)
    (hbehind : isBehind version options.currentVersion = true) :
    ∃ blockers, migrationFenceOpen world options = .shut blockers ∧
      ∃ blocker ∈ blockers, blocker.pid = some pid := by
  obtain ⟨blocker, hmem, hpid⟩ := scanned_blocks h hbehind
  have hne : (scanned world options).blockers ≠ [] := List.ne_nil_of_mem hmem
  refine ⟨_, if_neg hne, blocker, ?_, hpid⟩
  exact List.mem_mergeSort.mpr hmem

end

/-! ## Which comparisons the fence rests on -/

/-- No zero leads other digits. -/
def notZeroLed (digits : Units) : Bool := digits = [48] || digits.head? ≠ some 48

/-- What the versions of SemVer 2.0 keep to besides. -/
def Parts.isStrict (parts : Parts) : Bool :=
  [parts.major, parts.minor, parts.patch].all notZeroLed &&
    parts.preRelease.all (fun identifier => !isNumeric identifier || notZeroLed identifier) &&
    parts.build.all fun build => (build.splitOn 46).all fun part => !part.isEmpty

/-- A version of SemVer 2.0, perhaps with a `v` before it. -/
def IsVersion (value : Units) : Prop :=
  ∃ parts : Parts, parts.WellFormed ∧ parts.isStrict = true ∧
    ∃ v : Units, (v = [] ∨ v = [118]) ∧ value = v ++ parts.text

theorem isStrict_of_isVersion {value : Units} (h : IsVersion value) :
    (partsOf value).any Parts.isStrict = true := by
  obtain ⟨parts, hwell, hstrict, v, hv, rfl⟩ := h
  rw [Parts.partsOf_text hwell hv]
  exact hstrict

/-- What is compared though it is no version of SemVer 2.0. -/
def Loose (value : Units) : Prop := (compareVersions value value).isSome = true ∧ ¬IsVersion value

theorem loose_of_not {value : Units} (hsome : (compareVersions value value).isSome = true)
    (hstrict : (partsOf value).any Parts.isStrict = false) : Loose value := by
  refine ⟨hsome, ?_⟩
  intro h
  rw [isStrict_of_isVersion h] at hstrict
  cases hstrict

/-- White space around a version, zeros that lead digits, and build metadata with an empty
part are accepted. -/
theorem compareVersions_loose : Loose (Units.of " 1.0.0") ∧ Loose (Units.of "01.0.0") ∧
    Loose (Units.of "1.0.0-01") ∧ Loose (Units.of "1.0.0+a..b") :=
  ⟨loose_of_not (by decide) (by decide), loose_of_not (by decide) (by decide),
    loose_of_not (by decide) (by decide), loose_of_not (by decide) (by decide)⟩

theorem writes_of_isVersion {value : Units} (h : IsVersion value) : ∃ parts, Writes value parts := by
  obtain ⟨parts, hwell, -, v, hv, hvalue⟩ := h
  refine ⟨parts, hwell, [], v, [], nofun, hv, nofun, ?_⟩
  rw [hvalue, List.nil_append, List.append_nil]

/-- A version whose numbers are below `2 ^ 53`. -/
def ExactVersion (value : Units) (parts : Parts) : Prop := Writes value parts ∧ parts.Exact

/-- `compareVersions(a, b) <= 0` -/
def AtMost (a b : Units) : Prop :=
  ∃ order, compareVersions a b = some order ∧ order.le (.finite 0) = true

section

variable {a b c : Units} {p q r : Parts}

theorem ExactVersion.compare (ha : ExactVersion a p) (hb : ExactVersion b q) :
    compareVersions a b = some (signed (Semver.precedence p.version q.version)) :=
  compareVersions_eq ha.1 hb.1 ha.2 hb.2

theorem signed_le (o : Ordering) : (signed o).le (.finite 0) = true ↔ o ≠ .gt := by
  cases o <;> decide

theorem atMost_iff (ha : ExactVersion a p) (hb : ExactVersion b q) :
    AtMost a b ↔ Semver.precedence p.version q.version ≠ .gt := by
  rw [AtMost, ha.compare hb]
  constructor
  · rintro ⟨order, horder, hle⟩
    cases horder
    exact (signed_le _).mp hle
  · intro h
    exact ⟨_, rfl, (signed_le _).mpr h⟩

theorem atMost_trans (ha : ExactVersion a p) (hb : ExactVersion b q) (hc : ExactVersion c r)
    (hab : AtMost a b) (hbc : AtMost b c) : AtMost a c :=
  (atMost_iff ha hc).mpr
    (Semver.precedence_trans ((atMost_iff ha hb).mp hab) ((atMost_iff hb hc).mp hbc))

/-- Two directions have opposite signs. -/
theorem compareVersions_swap (ha : ExactVersion a p) (hb : ExactVersion b q) :
    ∃ o, compareVersions a b = some (signed o) ∧ compareVersions b a = some (signed o.swap) := by
  refine ⟨_, ha.compare hb, ?_⟩
  rw [Semver.precedence_swap]
  exact hb.compare ha

theorem compareVersions_build {build : Option Units} (ha : Writes a p)
    (hb : Writes b { p with build }) (c : Units) :
    compareVersions a c = compareVersions b c ∧ compareVersions c a = compareVersions c b := by
  have hsame : parseSemver a = parseSemver b := by
    rw [parseSemver, parseSemver, partsOf_trim.mpr ha, partsOf_trim.mpr hb]
    rfl
  simp only [compareVersions, hsame, and_self]

theorem compareVersions_numeric {common xs ys : List Units} {x y : Units} {build : Option Units}
    (ha : ExactVersion a { p with preRelease := common ++ x :: xs })
    (hb : ExactVersion b { p with preRelease := common ++ y :: ys, build })
    (hx : isNumeric x = true) (hy : isNumeric y = false) :
    compareVersions a b = some (.finite (-1)) := by
  have hbelow := Semver.precedence_numeric p.version (common.map identifier) (Parse.decimal x) y
    (xs.map identifier) (ys.map identifier) build
  rw [ha.compare hb]
  simp only [Parts.version, List.map_append, List.map_cons, identifier_numeric hx,
    identifier_text hy] at hbelow ⊢
  rw [hbelow]
  rfl

theorem compareVersions_longer {identifiers more : List Units} {build : Option Units}
    (ha : ExactVersion a { p with preRelease := identifiers })
    (hb : ExactVersion b { p with preRelease := identifiers ++ more, build })
    (hne : identifiers ≠ []) (hmore : more ≠ []) :
    compareVersions a b = some (.finite (-1)) := by
  have hmap : ∀ {ids : List Units}, ids ≠ [] → ids.map identifier ≠ [] :=
    fun h => List.map_eq_nil_iff.not.mpr h
  have hbelow := Semver.precedence_longer p.version (hmap hne) (hmap hmore) build
  rw [ha.compare hb]
  simp only [Parts.version, List.map_append] at hbelow ⊢
  rw [hbelow]
  rfl

theorem isBehind_of_lt (ha : ExactVersion a p) (hb : ExactVersion b q)
    (h : Semver.precedence p.version q.version = .lt) : isBehind a b = true := by
  rw [isBehind, ha.compare hb, h]
  rfl

end

/-- `compareVersions` is the precedence of versions, and the fence keeps to it. -/
theorem compareVersions_precedence :
    (∀ a b, (compareVersions a b).isSome = true ↔ (∃ p, Writes a p) ∧ ∃ q, Writes b q) ∧
    (∀ value, IsVersion value → ∃ p, Writes value p) ∧
    (∀ a b p q, ExactVersion a p → ExactVersion b q →
      compareVersions a b = some (signed (Semver.precedence p.version q.version))) ∧
    (∀ a b p q, ExactVersion a p → ExactVersion b q →
      ∃ o, compareVersions a b = some (signed o) ∧ compareVersions b a = some (signed o.swap)) ∧
    (∀ a b c p q r, ExactVersion a p → ExactVersion b q → ExactVersion c r →
      AtMost a b → AtMost b c → AtMost a c) ∧
    (∀ (a b c : Units) (p : Parts) (build : Option Units),
      Writes a p → Writes b { p with build } →
      compareVersions a c = compareVersions b c ∧ compareVersions c a = compareVersions c b) ∧
    (∀ (a b x y : Units) (p : Parts) (common xs ys : List Units) (build : Option Units),
      ExactVersion a { p with preRelease := common ++ x :: xs } →
      ExactVersion b { p with preRelease := common ++ y :: ys, build } →
      isNumeric x = true → isNumeric y = false → compareVersions a b = some (.finite (-1))) ∧
    (∀ (a b : Units) (p : Parts) (identifiers more : List Units) (build : Option Units),
      ExactVersion a { p with preRelease := identifiers } →
      ExactVersion b { p with preRelease := identifiers ++ more, build } →
      identifiers ≠ [] → more ≠ [] → compareVersions a b = some (.finite (-1))) ∧
    (∀ world options pid version p q, Shown world options pid version → ExactVersion version p →
      ExactVersion options.currentVersion q → Semver.precedence p.version q.version = .lt →
      ∃ blockers, migrationFenceOpen world options = .shut blockers ∧
        ∃ blocker ∈ blockers, blocker.pid = some pid) := by
  refine ⟨compareVersions_isSome, ?_, ?_, ?_, ?_, ?_, ?_, ?_, ?_⟩
  · intro value h
    exact writes_of_isVersion h
  · intro a b p q ha hb
    exact ha.compare hb
  · intro a b p q ha hb
    exact compareVersions_swap ha hb
  · intro a b c p q r ha hb hc
    exact atMost_trans ha hb hc
  · intro a b c p build ha hb
    exact compareVersions_build ha hb c
  · intro a b x y p common xs ys build ha hb hx hy
    exact compareVersions_numeric ha hb hx hy
  · intro a b p identifiers more build ha hb hne hmore
    exact compareVersions_longer ha hb hne hmore
  · intro world options pid version p q hshown hversion hcurrent hlt
    exact migrationFenceOpen_shut hshown (isBehind_of_lt hversion hcurrent hlt)

def alphaTwo : Parts where
  major := Units.of "1"
  minor := Units.of "0"
  patch := Units.of "0"
  preRelease := [Units.of "alpha", Units.of "2"]
  build := none

def alphaTen : Parts where
  major := Units.of "1"
  minor := Units.of "0"
  patch := Units.of "0"
  preRelease := [Units.of "alpha", Units.of "10"]
  build := some (Units.of "build")

theorem exact_alphaTwo : ExactVersion (Units.of "1.0.0-alpha.2") alphaTwo :=
  ⟨⟨⟨by decide, by decide, by decide, by decide, by decide⟩, [], [], [], by decide, by decide,
    by decide, by decide⟩, ⟨by decide, by decide, by decide, by decide⟩⟩

theorem exact_alphaTen : ExactVersion (Units.of "v1.0.0-alpha.10+build") alphaTen :=
  ⟨⟨⟨by decide, by decide, by decide, by decide, by decide⟩, [], [118], [], by decide, by decide,
    by decide, by decide⟩, ⟨by decide, by decide, by decide, by decide⟩⟩

/-- A live process has written a heartbeat without a start. -/
def alphaWorld : World where
  join := [47].intercalate
  homedir := Units.of "/home"
  xdgStateHome := none
  processPid := 8
  hasLegacyRuntimeGeneration := false
  isOpenaiRpcStateDir := fun _ => false
  readdir := fun _ => .ok [Units.of "7.json"]
  readFile := fun _ => .ok (Units.of "\x7b\"pid\":7,\"version\":\"1.0.0-alpha.2\"\x7d")
  mtime := fun _ => none
  isAlive := fun _ _ => some true
  now := .finite 0
  uptime := .finite 0

def alphaOptions : VersionFenceOptions where
  stateHome := none
  rpcDir := none
  currentVersion := Units.of "v1.0.0-alpha.10+build"
  selfPid := none
  layoutMove := false

def seven : Parse.NumberFields := ⟨[], [55], none, none⟩

theorem jsonNumber_seven : jsonNumber seven = .finite (7 : ℕ) := by
  have hvalue : seven.value = ((7 : ℕ) : ℚ) := by
    norm_num [Parse.NumberFields.value, Parse.NumberFields.signum, Parse.NumberFields.coefficient,
      Parse.NumberFields.scale, Parse.decimal, seven]
  rw [jsonNumber, hvalue]
  exact Number.toDouble_natCast (by norm_num)

theorem read_alphaWorld (path : Units) :
    readProcessRecord alphaWorld path 7 = .ok (Units.of "1.0.0-alpha.2") none none := by
  have hparse : Parse.parse (Units.of "\x7b\"pid\":7,\"version\":\"1.0.0-alpha.2\"\x7d") =
      some (.object [(Units.of "pid", .number seven),
        (Units.of "version", .string (Units.of "1.0.0-alpha.2"))]) := rfl
  have hpid : namesPid (.object [(Units.of "pid", .number seven),
      (Units.of "version", .string (Units.of "1.0.0-alpha.2"))]) 7 = true :=
    decide_eq_true jsonNumber_seven
  have hfile : alphaWorld.readFile path =
      .ok (Units.of "\x7b\"pid\":7,\"version\":\"1.0.0-alpha.2\"\x7d") := rfl
  simp only [readProcessRecord, hfile, hparse, hpid, if_true]
  rfl

theorem compareVersions_precedence_alpha :
    compareVersions (Units.of "1.0.0-alpha.2") (Units.of "v1.0.0-alpha.10+build") =
        some (.finite (-1)) ∧
      ∃ blockers, migrationFenceOpen alphaWorld alphaOptions = .shut blockers ∧
        ∃ blocker ∈ blockers, blocker.pid = some 7 :=
  ⟨compareVersions_precedence.2.2.1 _ _ _ _ exact_alphaTwo exact_alphaTen,
    compareVersions_precedence.2.2.2.2.2.2.2.2 alphaWorld alphaOptions 7 _ alphaTwo alphaTen
      (.heartbeat (List.mem_singleton.mpr rfl) (by decide) (by decide) (read_alphaWorld _) rfl rfl)
      exact_alphaTwo exact_alphaTen rfl⟩

end VersionFence
