import PathShim.Bind.Symlinks
import PathShim.Linux.Dirent
import PathShim.Linux.Continue
import PathShim.Linux.FailedOpen

/-!
# `openat2`

`handle_open` reads all of `open_how` and uses the flags and the mode. Nobody
looks at `resolve`: the supervisor opens the normalized path, and the
descriptor it sends may have been reached through links, other mounts and `..`
that the caller has ruled out.
-/

namespace Namei

open UnixPath

-- ---------------------------------------------------------------------------
-- Lookups with constraints
-- ---------------------------------------------------------------------------

/-- A tree, the mount each location is on, and the links that do not lead where their text says. -/
structure Namespace where
  tree : Tree
  mount : AbsPath → Nat
  magic : AbsPath → Bool

inductive Constraint where
  | noXdev
  | noMagiclinks
  | noSymlinks
  | beneath
  | inRoot

/-- `RESOLVE_NO_XDEV` and so on. `RESOLVE_CACHED` asks nothing of where a pathname leads. -/
def Constraint.bit : Constraint → UInt64
  | .noXdev => 0x01
  | .noMagiclinks => 0x02
  | .noSymlinks => 0x04
  | .beneath => 0x08
  | .inRoot => 0x10

/-- A pathname, the directory it is resolved from, and whether a link under its last name is
followed. -/
structure Lookup where
  start : AbsPath
  raw : OsStr
  follow : Bool

namespace Lookup

def cur (l : Lookup) : AbsPath := linkStart l.raw l.start

/-- The components whose links are followed. -/
def followed (l : Lookup) : List Component :=
  if l.follow then steps l.raw.bytes else (steps l.raw.bytes).dropLast

/-- The lookups that go on from what they find. -/
def passed (l : Lookup) (tree : Tree) : List (AbsPath × Component) :=
  lookups tree MAXSYMLINKS l.cur l.followed

/-- All lookups: the last name as well if its link is not followed. -/
def all (l : Lookup) (tree : Tree) : List (AbsPath × Component) :=
  l.passed tree ++
    match l.follow, (steps l.raw.bytes).getLast?, walk tree MAXSYMLINKS .name l.cur l.followed with
    | false, some c, .object d => [(d, c)]
    | _, _, _ => []

end Lookup

/-- Where a lookup leads, before a link there is followed. -/
def entered : AbsPath × Component → AbsPath
  | (d, .normal n) => d ++ [n]
  | (d, .parentDir) => d.dropLast
  | (d, _) => d

def linkAt (tree : Tree) (q : AbsPath × Component) : Option OsStr :=
  match tree (entered q) with
  | some (.link target) => some target
  | _ => none

/-- What a constraint asks of a lookup. Where beneath makes it fail, in-root has it go on inside the
directory: neither lets it leave. -/
def Namespace.Meets (ns : Namespace) (l : Lookup) : Constraint → Prop
  | .noXdev => ∀ q ∈ l.all ns.tree,
    ns.mount q.1 = ns.mount l.start ∧ ns.mount (entered q) = ns.mount l.start
  | .noMagiclinks => ∀ q ∈ l.passed ns.tree,
    (linkAt ns.tree q).isSome = true → ns.magic (entered q) = false
  | .noSymlinks => ∀ q ∈ l.passed ns.tree, linkAt ns.tree q = none
  | .beneath | .inRoot => l.raw.isAbsolute = false ∧
    (∀ q ∈ l.passed ns.tree,
      (linkAt ns.tree q).all (fun target => !target.isAbsolute) = true) ∧
    ∀ q ∈ l.all ns.tree, q.2 = .parentDir → q.1 ≠ l.start

instance (ns : Namespace) (l : Lookup) (k : Constraint) : Decidable (ns.Meets l k) :=
  match k with
  | .noXdev => inferInstanceAs (Decidable (∀ q ∈ l.all ns.tree,
      ns.mount q.1 = ns.mount l.start ∧ ns.mount (entered q) = ns.mount l.start))
  | .noMagiclinks => inferInstanceAs (Decidable (∀ q ∈ l.passed ns.tree,
      (linkAt ns.tree q).isSome = true → ns.magic (entered q) = false))
  | .noSymlinks => inferInstanceAs (Decidable (∀ q ∈ l.passed ns.tree, linkAt ns.tree q = none))
  | .beneath | .inRoot => inferInstanceAs (Decidable (_ ∧ (∀ q ∈ l.passed ns.tree, _) ∧
      ∀ q ∈ l.all ns.tree, q.2 = .parentDir → q.1 ≠ l.start))

end Namei

namespace PathShim

open UnixPath Effects Namei

def O_NOFOLLOW : Int32 := 0x20000

-- ---------------------------------------------------------------------------
-- `open_how`
-- ---------------------------------------------------------------------------

structure OpenHow where
  flags : UInt64
  mode : UInt64
  resolve : UInt64

/-- `repr(C)`. -/
def OpenHow.bytes (how : OpenHow) : Bytes :=
  leBytes 8 how.flags.toNat ++ (leBytes 8 how.mode.toNat ++ leBytes 8 how.resolve.toNat)

theorem toNat_leU64 (bytes : Bytes) (offset : Nat) :
    (leU64 bytes offset).toNat = leNat ((bytes.drop offset).take 8) % 2 ^ 64 := by
  rw [leU64]
  induction (bytes.drop offset).take 8 with
  | nil => rfl
  | cons b rest ih =>
    have hshift : (leNat rest % 2 ^ 64) <<< 8 % 2 ^ 64 = 2 ^ 8 * (leNat rest % 2 ^ 56) := by
      rw [Nat.shiftLeft_eq]
      omega
    have hb := b.toNat_lt
    rw [List.foldr_cons, UInt64.toNat_or, UInt64.toNat_shiftLeft, ih, UInt8.toNat_toUInt64, leNat,
      show (8 : UInt64).toNat % 64 = 8 from rfl, hshift, ← Nat.two_pow_add_eq_or_of_lt hb]
    omega

theorem leU64_leBytes (before after : Bytes) (n : UInt64) :
    leU64 (before ++ (leBytes 8 n.toNat ++ after)) before.length = n := by
  refine UInt64.toNat.inj ?_
  have hlength : (leBytes 8 n.toNat).length = 8 := length_leBytes 8 n.toNat
  rw [toNat_leU64, List.drop_left, List.take_append_of_le_length hlength.ge,
    List.take_of_length_le hlength.le, leNat_leBytes n.toNat_lt, Nat.mod_eq_of_lt n.toNat_lt]

theorem OpenHow.length_bytes (how : OpenHow) : how.bytes.length = sizeOfOpenHow := by
  simp [OpenHow.bytes, sizeOfOpenHow]

theorem OpenHow.leU64_flags (how : OpenHow) : leU64 how.bytes 0 = how.flags :=
  leU64_leBytes [] _ how.flags

theorem OpenHow.leU64_mode (how : OpenHow) : leU64 how.bytes 8 = how.mode := by
  have h := leU64_leBytes (leBytes 8 how.flags.toNat) (leBytes 8 how.resolve.toNat) how.mode
  rwa [length_leBytes] at h

-- ---------------------------------------------------------------------------
-- Calls
-- ---------------------------------------------------------------------------

/-- What the guest sees of a host. A bind is no mount of its own. -/
def BindView.guest (view : BindView) (host : Namespace) : Namespace where
  tree := view.guestTree host.tree
  mount path := host.mount (view.locate path)
  magic path := host.magic (view.locate path)

/-- `openat2(dirfd, raw, how, size)`, where `dirfd` is open on the guest's directory `start`. -/
structure HowCall where
  state : State
  host : Namespace
  notif : SeccompNotif
  memory : Memory
  start : AbsPath
  raw : OsStr
  how : OpenHow
  number : notif.data.nr = .sysOpenat2
  path : memory.Holds (notif.data.args 1) raw
  record : memory.has (notif.data.args 2).toNat how.bytes
  sources : state.view.SourcesInPlace host.tree

/-- An open that follows links succeeds where they lead, or where it can create a file. -/
def MayOpen (tree : Tree) (path : OsStr) (flags : Int32) : Prop :=
  flags &&& O_NOFOLLOW = 0 →
    (∃ p, resolve tree path = .object p) ∨
      flags &&& O_CREAT ≠ 0 ∧ ∃ p, resolve tree path = .missing p

namespace HowCall

/-- The host's answers. -/
def Answers (c : HowCall) : Env Op.Answer
  | .processVmReadv target address length, r =>
    target = c.notif.pid → r = c.memory.read address length
  | .readFdLink target fd, r => target = c.notif.pid → fd = asI32 (c.notif.data.args 0) →
    r = .ok (c.state.view.locate c.start).toPath
  | .readCwdLink target, r => target = c.notif.pid → asI32 (c.notif.data.args 0) = AT_FDCWD →
    r = .ok (c.state.view.locate c.start).toPath
  | .openFile path flags _, r => ∀ fd, r = .ok fd → MayOpen c.host.tree path flags
  | _, _ => True

/-- The same call as `openat`. -/
def openat (c : HowCall) : SeccompNotif where
  id := c.notif.id
  pid := c.notif.pid
  data.nr := .sysOpenat
  data.args i := if i = 2 then c.how.flags else if i = 3 then c.how.mode else c.notif.data.args i

/-- A link under the last name is followed, unless `O_NOFOLLOW` is set and no slash follows it. -/
def lookup (c : HowCall) : Lookup where
  start := c.start
  raw := c.raw
  follow := asI32 c.how.flags &&& O_NOFOLLOW = 0 || c.raw.bytes.getLast? == some slash

/-- Guest resolution satisfies what `resolve` asks. -/
def Satisfied (c : HowCall) : Prop :=
  ∀ k : Constraint, c.how.resolve &&& k.bit ≠ 0 → (c.state.view.guest c.host).Meets c.lookup k

end HowCall

/-- A call that gets a descriptor has been resolved as its `resolve` asks. -/
def Honours (resolve : UInt64) : Prop :=
  ∀ (c : HowCall) tr out, c.how.resolve = resolve →
    Exec c.Answers (handle c.state c.notif) tr out → ¬ Unsent tr → c.Satisfied

section
variable {c : HowCall} {tr : Trace}

theorem HowCall.read_record : ∃ chunk,
    c.memory.read (c.notif.data.args 2) sizeOfOpenHow = .ok chunk ∧ chunk.bytes = c.how.bytes := by
  have hmapped : c.memory.mapped (c.notif.data.args 2).toNat sizeOfOpenHow = c.how.bytes := by
    rw [← c.how.length_bytes]
    exact Memory.mapped_of_has c.record
  have hne : c.memory.mapped (c.notif.data.args 2).toNat sizeOfOpenHow ≠ [] := by
    rw [hmapped, ← List.length_pos_iff, c.how.length_bytes]
    decide
  exact ⟨_, dif_neg hne, hmapped⟩

theorem HowCall.exec_arguments {f : IoResult OpenArguments → Sup α} {out : Option α} :
    Exec c.Answers (openArguments c.notif >>= f) tr out ↔ ∃ rest,
      tr = ⟨.processVmReadv c.notif.pid (c.notif.data.args 2) sizeOfOpenHow,
        c.memory.read (c.notif.data.args 2) sizeOfOpenHow⟩ :: rest ∧
      Exec c.Answers (f (.ok ⟨asI32 (c.notif.data.args 0), c.notif.data.args 1,
        asI32 c.how.flags, asU32 c.how.mode⟩)) rest out := by
  obtain ⟨chunk, hread, hbytes⟩ := c.read_record
  have hbytes : chunk.bytes ++ List.replicate (sizeOfOpenHow - chunk.bytes.length) 0 =
      c.how.bytes := by
    rw [hbytes, c.how.length_bytes, Nat.sub_self, List.replicate_zero, List.append_nil]
  have hopen : c.notif.data.nr ≠ .sysOpen := by simp [c.number]
  have hopenat : c.notif.data.nr ≠ .sysOpenat := by simp [c.number]
  rw [openArguments, if_neg hopen, if_neg hopenat]
  constructor
  · intro hx
    obtain ⟨r, rest, hr, hrest, rfl⟩ := exec_call.mp hx
    obtain rfl := hr rfl
    refine ⟨rest, rfl, ?_⟩
    rw [hread] at hrest
    simpa [hbytes, c.how.leU64_flags, c.how.leU64_mode] using hrest
  · rintro ⟨rest, rfl, hrest⟩
    refine exec_call.mpr ⟨_, rest, fun _ => rfl, ?_, rfl⟩
    rw [hread]
    simpa [hbytes, c.how.leU64_flags, c.how.leU64_mode] using hrest

/-- What is read is only used for its flags and its mode. -/
theorem HowCall.exec_openat {out : Option (State × IoResult Unit)} :
    Exec c.Answers (handle c.state c.notif) tr out ↔ ∃ rest,
      tr = ⟨.processVmReadv c.notif.pid (c.notif.data.args 2) sizeOfOpenHow,
        c.memory.read (c.notif.data.args 2) sizeOfOpenHow⟩ :: rest ∧
      Exec c.Answers (handle c.state c.openat) rest out := by
  have hnr : c.openat.data.nr ∈ [.sysOpen, .sysOpenat, .sysOpenat2] :=
    List.mem_cons_of_mem _ List.mem_cons_self
  rw [handle_open (by simp [c.number]), handle_open hnr]
  exact c.exec_arguments

end

-- ---------------------------------------------------------------------------
-- Constraints that are dropped
-- ---------------------------------------------------------------------------

/-- In the source a magic link `l`, and another mount at `m`. -/
def constrainedHost : Namespace where
  tree := .ofList [
    (osStr ['/'], .dir), (osStr ['/', 's'], .dir), (osStr ['/', 's', '/', 'x'], .file),
    (osStr ['/', 's', '/', 'l'], .link (osStr ['x'])), (osStr ['/', 's', '/', 'm'], .dir),
    (osStr ['/', 's', '/', 'm', '/', 'x'], .file)]
  mount path := if (osStr ['/', 's', '/', 'm']).normalize <+: path then 1 else 0
  magic path := path == (osStr ['/', 's', '/', 'l']).normalize

/-- A pathname that a constraint rules out below `/a`. -/
def ruledOut : Constraint → List Char
  | .noXdev => ['m', '/', 'x']
  | .noMagiclinks | .noSymlinks => ['l']
  | .beneath | .inRoot => ['.', '.', '/', 'a', '/', 'x']

def howNotif : SeccompNotif :=
  ⟨9, 100, .sysOpenat2,
    fun i => if i = 0 then 3 else if i = 1 then 64 else if i = 2 then 4096 else 0⟩

/-- The pathname at 64 and the record at 4096. -/
def howMemory (how : OpenHow) (text : List Char) : Memory where
  byte x := ((Memory.ofBytes 4096 how.bytes).byte x).or ((pathMemory text).byte x)
  user x hx := by rw [(Memory.ofBytes 4096 how.bytes).user x hx, (pathMemory text).user x hx]; rfl

theorem howMemory_low {how : OpenHow} {text : List Char} {x : Nat} (hx : x < 4096) :
    (howMemory how text).byte x = (pathMemory text).byte x := by
  have hnone : (Memory.ofBytes 4096 how.bytes).byte x = none := by
    refine if_neg ?_
    omega
  show ((Memory.ofBytes 4096 how.bytes).byte x).or _ = _
  rw [hnone, Option.none_or]

theorem howMemory_path {how : OpenHow} {text : List Char} (h : text.length < 4000)
    (hbytes : (osStr text).bytes = ascii text) : (howMemory how text).Holds 64 (osStr text) := by
  have hlength : (ascii text ++ [0]).length = text.length + 1 := by simp [ascii]
  have hholds := pathMemory_holds (by omega) hbytes
  rw [Memory.Holds, hbytes, Memory.has_iff] at hholds ⊢
  intro i hi
  refine (howMemory_low ?_).trans (hholds i hi)
  show 64 + i < 4096
  omega

theorem howMemory_record (how : OpenHow) (text : List Char) :
    (howMemory how text).has 4096 how.bytes := by
  have hrecord : (Memory.ofBytes 4096 how.bytes).has 4096 how.bytes := by
    refine Memory.has_ofBytes ?_
    rw [how.length_bytes, sizeOfOpenHow]
    omega
  refine Memory.has_iff.mpr fun i hi => ?_
  show ((Memory.ofBytes 4096 how.bytes).byte (4096 + i)).or _ = _
  rw [Memory.has_iff.mp hrecord i hi, Option.some_or]

theorem howMemory_read {how how' : OpenHow} {text : List Char} :
    (howMemory how text).read 64 256 = (howMemory how' text).read 64 256 := by
  have hmapped : (howMemory how text).mapped 64 256 = (howMemory how' text).mapped 64 256 :=
    Memory.mapped_congr fun x _ hx =>
      (howMemory_low (by omega)).trans (howMemory_low (by omega)).symm
  simp only [Memory.read, show (64 : UInt64).toNat = 64 from rfl, hmapped]

/-- `openat2(3, text, {0, 0, resolve}, 24)` with descriptor 3 open on `/a`. -/
def howCall (k : Constraint) (resolve : UInt64) : HowCall where
  state := State.new linkBind
  host := constrainedHost
  notif := howNotif
  memory := howMemory ⟨0, 0, resolve⟩ (ruledOut k)
  start := (osStr ['/', 'a']).normalize
  raw := osStr (ruledOut k)
  how := ⟨0, 0, resolve⟩
  number := rfl
  path := by
    cases k <;> exact howMemory_path (by decide) (by decide)
  record := howMemory_record _ _
  sources := by
    intro p hp
    obtain rfl := List.mem_singleton.mp hp
    decide

/-- Answers that let every open that leads somewhere succeed. -/
def howAnswers (m : Memory) : (op : Op) → op.Answer
  | .openFile path _ _ =>
    match resolve constrainedHost.tree path with
    | .object _ => .ok 5
    | _ => .error ENOENT
  | .addFd _ => .ok 4
  | .readFdLink .. => .ok (osStr ['/', 's'])
  | op => m.answers op

theorem howAnswers_allowed {k : Constraint} (op : Op) :
    (howCall k 0).Answers op (howAnswers (howCall k 0).memory op) := by
  cases op with
  | processVmReadv => exact fun _ => rfl
  | readFdLink => exact fun _ _ => rfl
  | readCwdLink => exact fun _ hcwd => absurd (show asI32 3 = AT_FDCWD from hcwd) (by decide)
  | openFile path flags mode =>
    intro fd hfd _
    simp only [howAnswers] at hfd
    split at hfd
    · rename_i p hp
      exact .inl ⟨p, hp⟩
    · cases hfd
  | _ => trivial

/-- Of the memory only the pathname is read. -/
def readsPath (e : Event Op.Answer) : Bool :=
  match e.op with
  | .processVmReadv _ address length => address == 64 && length == 256
  | _ => true

def isSent (e : Event Op.Answer) : Bool :=
  match e with
  | ⟨.addFd _, .ok _⟩ => true
  | _ => false

/-- All of them are the same `openat`, whatever is in `resolve`. -/
def howOpenat : SeccompNotif :=
  ⟨9, 100, .sysOpenat, fun i => if i = 2 then 0 else if i = 3 then 0 else howNotif.data.args i⟩

theorem howCall_openat {k : Constraint} {resolve : UInt64} :
    (howCall k resolve).openat = howOpenat := rfl

def howTrace (k : Constraint) : Trace :=
  (handle (State.new linkBind) howOpenat).trace (howAnswers (howCall k 0).memory)

theorem howTrace_readsPath (k : Constraint) : (howTrace k).all readsPath = true := by
  cases k <;> rfl

theorem howTrace_sent (k : Constraint) : (howTrace k).any isSent = true := by
  cases k <;> rfl

def howLookup (k : Constraint) : Lookup := ⟨(osStr ['/', 'a']).normalize, osStr (ruledOut k), true⟩

theorem howCall_lookup {k : Constraint} {resolve : UInt64} :
    (howCall k resolve).lookup = howLookup k := by
  have hfollow : asI32 0 &&& O_NOFOLLOW = 0 := by decide
  simp only [HowCall.lookup, howCall, howLookup, hfollow, decide_true, Bool.true_or]

theorem howLookup_not_meets (k : Constraint) :
    ¬ (linkBind.guest constrainedHost).Meets (howLookup k) k := by
  cases k <;> decide

theorem howCall_host {k : Constraint} {resolve : UInt64} :
    (howCall k resolve).host = constrainedHost := rfl

theorem howCall_link {k : Constraint} {resolve : UInt64} :
    ((howCall k resolve).state.view.locate (howCall k resolve).start).toPath =
      (linkBind.locate (osStr ['/', 'a']).normalize).toPath := rfl

theorem howCall_answers {k : Constraint} {resolve : UInt64} {e : Event Op.Answer}
    (hpath : readsPath e = true) (h : (howCall k 0).Answers e.op e.answer) :
    (howCall k resolve).Answers e.op e.answer := by
  obtain ⟨op, r⟩ := e
  cases op with
  | processVmReadv target address length =>
    intro htarget
    simp only [readsPath, Bool.and_eq_true, beq_iff_eq] at hpath
    obtain ⟨rfl, rfl⟩ := hpath
    exact (h htarget).trans howMemory_read
  | readFdLink | readCwdLink =>
    intro htarget hfd
    rw [howCall_link]
    exact (h htarget hfd).trans (congrArg Except.ok howCall_link)
  | openFile path flags mode =>
    intro fd hfd
    have hmay := h fd hfd
    rw [howCall_host] at hmay ⊢
    exact hmay
  | _ => trivial

/-- The calls succeed whatever is in `resolve`. -/
theorem howCall_run (k : Constraint) (resolve : UInt64) : ∃ tr out,
    Exec (howCall k resolve).Answers (handle (howCall k resolve).state (howCall k resolve).notif)
      tr out ∧ ¬ Unsent tr := by
  have hx : Exec (howCall k 0).Answers (handle (State.new linkBind) howOpenat) (howTrace k) _ :=
    exec_eval _ howAnswers_allowed _
  have hrun := hx.allowed fun e he => @howCall_answers k resolve e
    (List.all_eq_true.mp (howTrace_readsPath k) e he) (hx.answers e he)
  rw [← @howCall_openat k resolve] at hrun
  obtain ⟨⟨op, r⟩, he, hsent⟩ := List.any_eq_true.mp (howTrace_sent k)
  refine ⟨_, _, HowCall.exec_openat.mpr ⟨howTrace k, rfl, hrun⟩, fun hunsent => ?_⟩
  cases op with
  | addFd request =>
    cases r with
    | ok fd => exact hunsent request fd (List.mem_cons_of_mem _ he)
    | error e => cases hsent
  | _ => cases hsent

/-- A value of `resolve` is honoured just if it has none of the bits that constrain the lookup, and
every value is treated like an `openat` with the same flags and mode. -/
theorem openat2_honoured {resolve : UInt64} :
    (Honours resolve ↔ ∀ k : Constraint, resolve &&& k.bit = 0) ∧
      ∀ (c : HowCall) tr out, Exec c.Answers (handle c.state c.notif) tr out ↔ ∃ rest,
        tr = ⟨.processVmReadv c.notif.pid (c.notif.data.args 2) sizeOfOpenHow,
          c.memory.read (c.notif.data.args 2) sizeOfOpenHow⟩ :: rest ∧
        Exec c.Answers (handle c.state c.openat) rest out := by
  refine ⟨⟨fun h k => ?_, fun h c tr out hresolve _ _ k hset => ?_⟩,
    fun c tr out => HowCall.exec_openat⟩
  · by_contra hset
    obtain ⟨tr, out, hx, hsent⟩ := howCall_run k resolve
    have hmeets := h (howCall k resolve) tr out rfl hx hsent k hset
    rw [howCall_lookup] at hmeets
    exact howLookup_not_meets k hmeets
  · exact absurd (hresolve ▸ h k) hset

/-- `RESOLVE_NO_SYMLINKS`, and the descriptor has been reached through a link. -/
theorem openat2_follows_link : ∃ (c : HowCall) (tr : Trace) (out : Option (State × IoResult Unit)),
    c.how.resolve = 0x04 ∧ c.raw = osStr ['l'] ∧
      Exec c.Answers (handle c.state c.notif) tr out ∧ ¬ Unsent tr ∧
      ¬ (c.state.view.guest c.host).Meets c.lookup .noSymlinks := by
  obtain ⟨tr, out, hx, hsent⟩ := howCall_run .noSymlinks 0x04
  exact ⟨_, tr, out, rfl, rfl, hx, hsent, howLookup_not_meets .noSymlinks⟩

end PathShim
