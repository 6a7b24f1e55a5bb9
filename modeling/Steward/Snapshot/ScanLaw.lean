import Mathlib.Algebra.Order.BigOperators.Group.List
import Steward.Py.Worklist
import Steward.Snapshot.Scan

/-!
# What a scan reports

`Scans` is one scope walked to the end: every object below its root is seen once.
A scan that is not partial walks all scopes so, in whatever order directories are
listed. `scan_law_iff` says when it also keeps to its number of entries: the root
of a scope is recorded without asking whether there is room for it.
-/

namespace Steward.Scan

open Py Session

/-! ## What is below a root -/

section
variable (tree : Tree) (budget : ScanBudget) (blocked : List HostPath) (scope : ScopeConfig)

/-- The device of the root. -/
def rootDevice : Int :=
  match tree.lstat scope.normalizedPath with
  | .ok info => info.device
  | .error _ => 0

/-- A directory below the root that is no link, not blocked, and on the root's device unless mounts may be
crossed. -/
def opensAt (below : List Text) : Bool :=
  match tree.lstat (scope.normalizedPath ++ below) with
  | .ok info => opens blocked scope (rootDevice tree scope) below info
  | .error _ => false

/-- The directories whose children are looked at. -/
def listed (below : List Text) : Bool :=
  !tooDeep budget below.length && (below = [] || opensAt tree blocked scope below)

def childrenOf (below : List Text) : List (List Text) :=
  if listed tree budget blocked scope below then
    ((tree.scandir (scope.normalizedPath ++ below)).getD []).map fun name => below ++ [name]
  else []

/-- The objects of a scope, by their names below its root. -/
abbrev Reachable : List Text → Prop := Worklist.Reach (childrenOf tree budget blocked scope) []

def sightingAt (below : List Text) : Sighting where
  scope
  below
  info := match tree.lstat (scope.normalizedPath ++ below) with
    | .ok info => .ok info
    | .error fault => .error (childStatus fault, fault)
  excluded := if below = [] then false else match tree.lstat (scope.normalizedPath ++ below) with
    | .ok _ => skips blocked scope below
    | .error _ => false

/-- What an object adds to the bytes. -/
def weightAt (below : List Text) : Nat :=
  if below = [] then 0 else match tree.lstat (scope.normalizedPath ++ below) with
    | .ok info => bytesOf blocked scope below info
    | .error _ => 0

/-- The children of a listed directory can be listed. -/
def Readable (below : List Text) : Prop :=
  listed tree budget blocked scope below = true → ∃ names, tree.scandir (scope.normalizedPath ++ below) = some names

def Known (below : List Text) : Prop := ∃ info, tree.lstat (scope.normalizedPath ++ below) = .ok info

end

section
variable {tree : Tree} {late : Nat → Bool} {budget : ScanBudget} {blocked : List HostPath} {scope : ScopeConfig}

theorem mem_childrenOf {below x : List Text} : x ∈ childrenOf tree budget blocked scope below ↔
    listed tree budget blocked scope below = true ∧
      ∃ names, tree.scandir (scope.normalizedPath ++ below) = some names ∧ ∃ name ∈ names, below ++ [name] = x := by
  unfold childrenOf
  cases hlisted : listed tree budget blocked scope below with
  | false => simp
  | true =>
    cases hnames : tree.scandir (scope.normalizedPath ++ below) with
    | none => simp
    | some names => simp

theorem childrenOf_eq {below : List Text} {names : List Text} (hlisted : listed tree budget blocked scope below = true)
    (hnames : tree.scandir (scope.normalizedPath ++ below) = some names) :
    childrenOf tree budget blocked scope below = names.map fun name => below ++ [name] := by
  rw [childrenOf, if_pos hlisted, hnames]
  rfl

theorem forest_childrenOf : Worklist.Forest (childrenOf tree budget blocked scope) [] where
  nodup below := by
    unfold childrenOf
    split_ifs
    · refine List.Nodup.map (fun a b h => List.singleton_inj.1 (List.append_cancel_left h)) ?_
      cases hnames : tree.scandir (scope.normalizedPath ++ below) with
      | none => exact List.nodup_nil
      | some names => exact tree.names_nodup _ _ hnames
    · exact List.nodup_nil
  parent ha hb := by
    obtain ⟨-, -, -, name, -, rfl⟩ := mem_childrenOf.1 ha
    obtain ⟨-, -, -, name', -, h⟩ := mem_childrenOf.1 hb
    exact (List.append_inj_left' h rfl).symm
  root below h := by
    obtain ⟨-, -, -, name, -, h⟩ := mem_childrenOf.1 h
    exact List.append_ne_nil_of_right_ne_nil _ (List.cons_ne_nil _ _) h

theorem isName_of_reachable {below : List Text} (h : Reachable tree budget blocked scope below) :
    ∀ name ∈ below, IsName name := by
  induction h with
  | root => exact fun _ h => nomatch h
  | child _ hb ih =>
    obtain ⟨-, names, hnames, name, hname, rfl⟩ := mem_childrenOf.1 hb
    intro n hn
    rcases List.mem_append.1 hn with hn | hn
    · exact ih n hn
    · exact List.mem_singleton.1 hn ▸ tree.names_isName _ _ hnames name hname

/-! ## Children -/

/-- The bytes are within the budget. -/
def InBudget (budget : ScanBudget) (w : Walk) : Prop := ∀ limit ∈ budget.maxTotalStatBytes, w.byteTotal ≤ limit

/-- A loop over the children of a directory that goes through. -/
structure ScansChildren (tree : Tree) (budget : ScanBudget) (blocked : List HostPath) (scope : ScopeConfig)
    (directory : List Text) (depth : Int) (names : List Text) (w w' : Walk) : Prop where
  known : ∀ name ∈ names, Known tree scope (directory ++ [name])
  room : names = [] ∨ (w'.sightings.length : Int) ≤ budget.maxEntries
  sightings : w'.sightings = w.sightings ++ names.map fun name => sightingAt tree blocked scope (directory ++ [name])
  byteTotal : w'.byteTotal = w.byteTotal + (names.map fun name => weightAt tree blocked scope (directory ++ [name])).sum
  stack : w'.stack = ((names.filter fun name => opensAt tree blocked scope (directory ++ [name])).map fun name =>
    (directory ++ [name], depth + 1)).reverse ++ w.stack
  inBudget : InBudget budget w → InBudget budget w'

section
variable {directory : List Text} {depth : Int} {names : List Text} {w : Walk}


theorem sightingAt_child {name : Text} {info : StatResult}
    (h : tree.lstat (scope.normalizedPath ++ (directory ++ [name])) = .ok info) :
    sightingAt tree blocked scope (directory ++ [name]) =
      ⟨scope, directory ++ [name], .ok info, skips blocked scope (directory ++ [name])⟩ := by
  simp [sightingAt, h]

theorem weightAt_child {name : Text} {info : StatResult}
    (h : tree.lstat (scope.normalizedPath ++ (directory ++ [name])) = .ok info) :
    weightAt tree blocked scope (directory ++ [name]) = bytesOf blocked scope (directory ++ [name]) info := by
  simp [weightAt, h]

theorem opensAt_child {below : List Text} {info : StatResult}
    (h : tree.lstat (scope.normalizedPath ++ below) = .ok info) :
    opensAt tree blocked scope below = opens blocked scope (rootDevice tree scope) below info := by
  simp [opensAt, h]

/-- The walk after a child that raises nothing. -/
def Walk.seeing (w : Walk) (tree : Tree) (blocked : List HostPath) (scope : ScopeConfig) (below : List Text)
    (depth : Int) : Walk where
  sightings := w.sightings ++ [sightingAt tree blocked scope below]
  isPartial := w.isPartial
  byteTotal := w.byteTotal + weightAt tree blocked scope below
  readings := w.readings + 1
  stack := if opensAt tree blocked scope below then (below, depth + 1) :: w.stack else w.stack

/-- One turn of the loop over the children. -/
theorem scanChildren_cons {name : Text} :
    scanChildren tree late budget blocked scope (rootDevice tree scope) directory depth (name :: names) w =
      if budget.maxEntries ≤ w.sightings.length then { w with isPartial := true }
      else if late w.readings then { w with isPartial := true, readings := w.readings + 1 }
      else match tree.lstat (scope.normalizedPath ++ (directory ++ [name])) with
        | .error fault =>
          scanChildren tree late budget blocked scope (rootDevice tree scope) directory depth names
            ⟨w.sightings ++ [⟨scope, directory ++ [name], .error (childStatus fault, fault), false⟩], true,
              w.byteTotal, w.readings + 1, w.stack⟩
        | .ok info =>
          if !skips blocked scope (directory ++ [name]) && kindOf info.mode = .regularFile &&
              budget.maxTotalStatBytes.any (· < w.byteTotal + weightAt tree blocked scope (directory ++ [name])) then
            ⟨w.sightings ++ [sightingAt tree blocked scope (directory ++ [name])], true,
              w.byteTotal + weightAt tree blocked scope (directory ++ [name]), w.readings + 1, w.stack⟩
          else scanChildren tree late budget blocked scope (rootDevice tree scope) directory depth names
            (w.seeing tree blocked scope (directory ++ [name]) depth) := by
  rw [scanChildren]
  split_ifs with hfull hlate
  · rfl
  · rfl
  dsimp only
  cases hinfo : tree.lstat (scope.normalizedPath ++ (directory ++ [name])) with
  | error fault => rfl
  | ok info =>
    simp only [Walk.seeing, sightingAt_child hinfo, weightAt_child hinfo, opensAt_child hinfo]
    split_ifs <;> rfl

theorem weightAt_eq_zero {name : Text} {info : StatResult}
    (h : tree.lstat (scope.normalizedPath ++ (directory ++ [name])) = .ok info)
    (hno : (!skips blocked scope (directory ++ [name]) && kindOf info.mode = .regularFile) = false) :
    weightAt tree blocked scope (directory ++ [name]) = 0 := by
  rw [weightAt_child h, bytesOf, hno]
  rfl

/-- A loop that leaves the scan complete goes through. -/
theorem scansChildren (h : (scanChildren tree late budget blocked scope (rootDevice tree scope) directory depth names
      w).isPartial = false) :
    w.isPartial = false ∧ ScansChildren tree budget blocked scope directory depth names w
      (scanChildren tree late budget blocked scope (rootDevice tree scope) directory depth names w) := by
  induction names generalizing w with
  | nil =>
    exact ⟨h, ⟨List.forall_mem_nil _, .inl rfl, (List.append_nil _).symm, (add_zero _).symm, rfl, id⟩⟩
  | cons name names ih =>
    rw [scanChildren_cons] at h ⊢
    by_cases hfull : budget.maxEntries ≤ w.sightings.length
    · rw [if_pos hfull] at h
      cases h
    rw [if_neg hfull] at h ⊢
    by_cases hlate : late w.readings = true
    · rw [if_pos hlate] at h
      cases h
    rw [if_neg hlate] at h ⊢
    cases hinfo : tree.lstat (scope.normalizedPath ++ (directory ++ [name])) with
    | error fault =>
      rw [hinfo] at h
      cases (ih h).1
    | ok info =>
      rw [hinfo] at h
      dsimp only at h ⊢
      split_ifs at h ⊢ with hover
      obtain ⟨hunfinished, hrest⟩ := ih h
      refine ⟨hunfinished, ?_, .inr ?_, ?_, ?_, ?_, fun hbudget => hrest.inBudget fun limit hlimit => ?_⟩
      · exact List.forall_mem_cons.2 ⟨⟨info, hinfo⟩, hrest.known⟩
      · rcases hrest.room with rfl | hroom
        · rw [hrest.sightings]
          simp only [Walk.seeing, List.map_nil, List.append_nil, List.length_append, List.length_singleton]
          omega
        · exact hroom
      · rw [hrest.sightings, List.map_cons, Walk.seeing, List.append_assoc]
        rfl
      · rw [hrest.byteTotal, List.map_cons, List.sum_cons, Walk.seeing]
        push_cast
        exact add_assoc _ _ _
      · rw [hrest.stack, Walk.seeing]
        cases hopens : opensAt tree blocked scope (directory ++ [name]) with
        | true => simp [hopens]
        | false => simp [hopens]
      · have hbound := hbudget limit hlimit
        cases hregular : (!skips blocked scope (directory ++ [name]) && kindOf info.mode = .regularFile) with
        | false =>
          rw [Walk.seeing, weightAt_eq_zero hinfo hregular]
          simpa using hbound
        | true =>
          rw [hregular, Bool.true_and] at hover
          by_contra hlt
          exact hover ((Option.any_eq_true _ _).2 ⟨limit, hlimit, decide_eq_true (not_le.1 hlt)⟩)

/-- A loop with room, time and bytes for all children goes through. -/
theorem isPartial_scanChildren (hunfinished : w.isPartial = false) (hlate : ∀ n, late n = false)
    (hknown : ∀ name ∈ names, Known tree scope (directory ++ [name]))
    (hroom : names = [] ∨ (w.sightings.length + names.length : Int) ≤ budget.maxEntries)
    (hbytes : ∀ limit ∈ budget.maxTotalStatBytes,
      w.byteTotal + (names.map fun name => weightAt tree blocked scope (directory ++ [name])).sum ≤ limit) :
    (scanChildren tree late budget blocked scope (rootDevice tree scope) directory depth names w).isPartial =
      false := by
  induction names generalizing w with
  | nil => exact hunfinished
  | cons name names ih =>
    obtain ⟨⟨info, hinfo⟩, hrest⟩ := List.forall_mem_cons.1 hknown
    replace hroom := hroom.resolve_left (List.cons_ne_nil _ _)
    rw [List.length_cons] at hroom
    rw [scanChildren_cons, if_neg (by push_cast at hroom; omega), if_neg (by rw [hlate]; exact Bool.false_ne_true),
      hinfo]
    dsimp only
    have hsum : ∀ limit ∈ budget.maxTotalStatBytes,
        w.byteTotal + weightAt tree blocked scope (directory ++ [name]) +
          (names.map fun name => weightAt tree blocked scope (directory ++ [name])).sum ≤ limit := fun limit hlimit => by
      have := hbytes limit hlimit
      rw [List.map_cons, List.sum_cons] at this
      push_cast at this ⊢
      omega
    rw [if_neg]
    · refine ih hunfinished hrest (.inr ?_) hsum
      simp only [Walk.seeing, List.length_append, List.length_singleton]
      push_cast at hroom ⊢
      omega
    · simp only [Bool.and_eq_true, Option.any_eq_true, decide_eq_true_eq, not_and, not_exists, not_lt]
      intro _ limit hlimit
      have := hsum limit hlimit
      omega

end

/-! ## One scope -/

/-- Between two directories of a scope; `seen`: what was recorded since its root. -/
structure ScopeWalk (tree : Tree) (budget : ScanBudget) (blocked : List HostPath) (scope : ScopeConfig)
    (w₀ w : Walk) (seen : List (List Text)) : Prop where
  explores : Worklist.Explores (childrenOf tree budget blocked scope) []
    (Readable tree budget blocked scope) (w.stack.map Prod.fst) seen
  depths : ∀ x ∈ w.stack, x.2 = x.1.length ∧ (x.1 = [] ∨ opensAt tree blocked scope x.1 = true)
  known : ∀ x ∈ seen, Known tree scope x
  sightings : w.sightings = w₀.sightings ++ seen.map (sightingAt tree blocked scope)
  byteTotal : w.byteTotal = w₀.byteTotal + (seen.map (weightAt tree blocked scope)).sum
  room : seen.length ≤ 1 ∨ (w.sightings.length : Int) ≤ budget.maxEntries
  inBudget : InBudget budget w₀ → InBudget budget w

section
variable {w₀ w : Walk} {seen : List (List Text)} {directory : List Text} {depth : Int}
  {stack : List (List Text × Int)}

theorem ScopeWalk.listed_iff (h : ScopeWalk tree budget blocked scope w₀ w seen)
    (hstack : w.stack = (directory, depth) :: stack) :
    listed tree budget blocked scope directory = !tooDeep budget depth := by
  obtain ⟨hdepth, hopens⟩ := h.depths _ (hstack ▸ List.mem_cons_self)
  dsimp only at hdepth hopens
  rw [listed, hdepth]
  rcases hopens with rfl | hopens
  · simp
  · simp [hopens]

/-- A directory at the maximal depth is left. -/
theorem ScopeWalk.leave (h : ScopeWalk tree budget blocked scope w₀ w seen)
    (hstack : w.stack = (directory, depth) :: stack) (hdeep : tooDeep budget depth = true) :
    ScopeWalk tree budget blocked scope w₀ { w with stack := stack } seen := by
  have hlisted : listed tree budget blocked scope directory = false := by rw [h.listed_iff hstack, hdeep]; rfl
  have hchildren : childrenOf tree budget blocked scope directory = [] := by
    rw [childrenOf, hlisted]
    rfl
  have hexplores := h.explores
  rw [hstack, List.map_cons] at hexplores
  have hstep := hexplores.step forest_childrenOf (fun hyes => absurd hyes (by rw [hlisted]; decide))
    List.nodup_nil (List.forall_mem_nil _) (by simp [hchildren])
  rw [hchildren, List.append_nil] at hstep
  exact ⟨hstep, fun x hx => h.depths x (hstack ▸ List.mem_cons_of_mem _ hx), h.known, h.sightings, h.byteTotal,
    h.room, h.inBudget⟩

/-- A directory is listed. -/
theorem ScopeWalk.list {names : List Text} {w' : Walk} (h : ScopeWalk tree budget blocked scope w₀ w seen)
    (hstack : w.stack = (directory, depth) :: stack) (hdeep : tooDeep budget depth = false)
    (hnames : tree.scandir (scope.normalizedPath ++ directory) = some names)
    (hscans : ScansChildren tree budget blocked scope directory depth names { w with stack := stack } w') :
    ScopeWalk tree budget blocked scope w₀ w' (seen ++ childrenOf tree budget blocked scope directory) := by
  have hlisted : listed tree budget blocked scope directory = true := by rw [h.listed_iff hstack, hdeep]; rfl
  have hchildren := childrenOf_eq hlisted hnames
  obtain ⟨hdepth, -⟩ := h.depths _ (hstack ▸ List.mem_cons_self)
  have hpushed : w'.stack.map Prod.fst =
      ((childrenOf tree budget blocked scope directory).filter (opensAt tree blocked scope)).reverse ++
        stack.map Prod.fst := by
    rw [hscans.stack, hchildren, List.map_append, List.map_reverse, List.map_map, List.filter_map]
    rfl
  refine ⟨?_, fun x hx => ?_, fun x hx => ?_, ?_, ?_, ?_, fun hbudget => hscans.inBudget (h.inBudget hbudget)⟩
  · rw [hpushed]
    have hexplores := h.explores
    rw [hstack, List.map_cons] at hexplores
    refine hexplores.step forest_childrenOf (fun _ => ⟨names, hnames⟩)
      (List.nodup_reverse.2 ((forest_childrenOf.nodup directory).filter _))
      (fun x hx => List.mem_of_mem_filter (List.mem_reverse.1 hx)) fun x hx hnot => ?_
    have hclosed : listed tree budget blocked scope x = false := by
      obtain ⟨-, -, -, name, -, rfl⟩ := mem_childrenOf.1 hx
      rw [List.mem_reverse, List.mem_filter, not_and, Bool.not_eq_true] at hnot
      rw [listed, hnot hx]
      simp
    exact ⟨fun hyes => absurd hyes (by rw [hclosed]; decide), by rw [childrenOf, hclosed]; rfl⟩
  · rw [hscans.stack] at hx
    rcases List.mem_append.1 hx with hx | hx
    · obtain ⟨name, hname, rfl⟩ := List.mem_map.1 (List.mem_reverse.1 hx)
      refine ⟨?_, .inr (List.mem_filter.1 hname).2⟩
      rw [List.length_append, List.length_singleton]
      push_cast
      exact congrArg (· + 1) hdepth
    · exact h.depths x (hstack ▸ List.mem_cons_of_mem _ hx)
  · rcases List.mem_append.1 hx with hx | hx
    · exact h.known x hx
    · rw [hchildren] at hx
      obtain ⟨name, hname, rfl⟩ := List.mem_map.1 hx
      exact hscans.known name hname
  · rw [hscans.sightings, h.sightings, hchildren, List.map_append, List.map_map, List.append_assoc]
    rfl
  · rw [hscans.byteTotal, h.byteTotal, hchildren, List.map_append, List.map_map, List.sum_append, add_assoc]
    push_cast
    rfl
  · rcases hscans.room with rfl | hroom
    · rw [hchildren, List.map_nil, List.append_nil, hscans.sightings, List.map_nil, List.append_nil]
      exact h.room
    · exact .inr hroom

theorem scanStack_nil {device : Int} (hstack : w.stack = []) :
    scanStack tree late budget blocked scope device w = w := by
  rw [scanStack]
  split_ifs
  · rfl
  split
  · rfl
  · rename_i heq
    cases hstack.symm.trans heq

theorem scanStack_cons {device : Int} (hunfinished : w.isPartial = false) (hstack : w.stack = (directory, depth) :: stack) :
    scanStack tree late budget blocked scope device w =
      if tooDeep budget depth then
        scanStack tree late budget blocked scope device { w with stack := stack }
      else match tree.scandir (scope.normalizedPath ++ directory) with
        | none => { w with stack := stack, isPartial := true }
        | some names => scanStack tree late budget blocked scope device
          (scanChildren tree late budget blocked scope device directory depth names
            { w with stack := stack }) := by
  rw [scanStack, if_neg (by rw [hunfinished]; exact Bool.false_ne_true)]
  split
  · rename_i heq
    cases hstack.symm.trans heq
  · rename_i heq
    cases hstack.symm.trans heq
    rfl

/-- The walk over a scope that leaves the scan complete goes through. -/
theorem ScopeWalk.run (h : ScopeWalk tree budget blocked scope w₀ w seen)
    (hunfinished : (scanStack tree late budget blocked scope (rootDevice tree scope) w).isPartial = false) :
    ∃ part, ScopeWalk tree budget blocked scope w₀
        (scanStack tree late budget blocked scope (rootDevice tree scope) w) part ∧
      (scanStack tree late budget blocked scope (rootDevice tree scope) w).stack = [] := by
  induction w using scanStack.induct tree late budget blocked scope (rootDevice tree scope) generalizing seen with
  | case1 w hyes =>
    rw [scanStack, if_pos hyes] at hunfinished
    exact absurd (hyes.symm.trans hunfinished) (by decide)
  | case2 w _ hstack =>
    rw [scanStack_nil hstack]
    exact ⟨seen, h, hstack⟩
  | case3 w hno directory depth rest hstack hdeep ih =>
    rw [scanStack_cons (Bool.eq_false_iff.2 hno) hstack, if_pos hdeep] at hunfinished ⊢
    exact ih (h.leave hstack hdeep) hunfinished
  | case4 w hno directory depth rest hstack hdeep hnames =>
    rw [scanStack_cons (Bool.eq_false_iff.2 hno) hstack, if_neg hdeep, hnames] at hunfinished
    cases hunfinished
  | case5 w hno directory depth rest hstack hdeep names hnames ih =>
    rw [scanStack_cons (Bool.eq_false_iff.2 hno) hstack, if_neg hdeep, hnames] at hunfinished ⊢
    have hchildren : (scanChildren tree late budget blocked scope (rootDevice tree scope) directory depth names
        { w with stack := rest }).isPartial = false := by
      by_contra hyes
      dsimp only at hunfinished
      rw [scanStack, if_pos (Bool.not_eq_false _ ▸ hyes)] at hunfinished
      exact hyes hunfinished
    exact ih (h.list hstack (Bool.eq_false_iff.2 hdeep) hnames (scansChildren hchildren).2) hunfinished

end

/-! ## Two orders -/

/-- The same file system, its directories listed in another order. -/
structure Reordered (tree tree' : Tree) : Prop where
  isDir : tree'.isDir = tree.isDir
  lstat : tree'.lstat = tree.lstat
  readlink : tree'.readlink = tree.readlink
  access : tree'.access = tree.access
  scandir : ∀ path, Option.Rel List.Perm (tree.scandir path) (tree'.scandir path)

/-- A scope walked to the end; `part`: the objects seen. -/
structure Scans (tree : Tree) (budget : ScanBudget) (blocked : List HostPath) (w w' : Walk) (scope : ScopeConfig)
    (part : List (List Text)) : Prop where
  isDir : tree.isDir scope.normalizedPath = true
  nodup : part.Nodup
  reachable : ∀ x, x ∈ part ↔ Reachable tree budget blocked scope x
  known : ∀ x ∈ part, Known tree scope x
  readable : ∀ x ∈ part, Readable tree budget blocked scope x
  sightings : w'.sightings = w.sightings ++ part.map (sightingAt tree blocked scope)
  byteTotal : w'.byteTotal = w.byteTotal + (part.map (weightAt tree blocked scope)).sum
  room : part.length ≤ 1 ∨ (w'.sightings.length : Int) ≤ budget.maxEntries
  inBudget : InBudget budget w → InBudget budget w'

section
variable {tree' : Tree} {w w' v : Walk} {part : List (List Text)} {x : List Text}

/-- At the root of a scope. -/
theorem scopeWalk_root {info : StatResult} (hinfo : tree.lstat scope.normalizedPath = .ok info) :
    ScopeWalk tree budget blocked scope w
      { w with sightings := w.sightings ++ [⟨scope, [], .ok info, false⟩], stack := [([], 0)] } [[]] where
  explores := .start forest_childrenOf
  depths x hx := by
    obtain rfl := List.mem_singleton.1 hx
    exact ⟨rfl, .inl rfl⟩
  known x hx := by
    obtain rfl := List.mem_singleton.1 hx
    exact ⟨info, by rwa [List.append_nil]⟩
  sightings := by simp [sightingAt, hinfo]
  byteTotal := by simp [weightAt]
  room := .inl (Nat.le_refl _)
  inBudget := id

theorem rootDevice_eq {info : StatResult} (hinfo : tree.lstat scope.normalizedPath = .ok info) :
    info.device = rootDevice tree scope := by
  rw [rootDevice, hinfo]

/-- A scope that leaves the scan complete is walked to the end. -/
theorem scans_scanScope (h : (scanScope tree late budget blocked w scope).isPartial = false) :
    w.isPartial = false ∧ ∃ part, Scans tree budget blocked w (scanScope tree late budget blocked w scope) scope part := by
  unfold scanScope at h ⊢
  by_cases hdir : tree.isDir scope.normalizedPath = false
  · rw [if_pos hdir] at h
    cases h
  rw [if_neg hdir] at h ⊢
  cases hinfo : tree.lstat scope.normalizedPath with
  | error fault =>
    rw [hinfo] at h
    cases h
  | ok info =>
    rw [hinfo] at h
    dsimp only at h ⊢
    rw [rootDevice_eq hinfo] at h ⊢
    obtain ⟨part, hpart, hstack⟩ := (scopeWalk_root hinfo).run h
    have hexplores := hpart.explores
    rw [hstack] at hexplores
    refine ⟨?_, part, Bool.eq_true_of_not_eq_false hdir, hexplores.nodup, fun x => hexplores.complete, hpart.known,
      fun x hx => hexplores.all_done (hexplores.complete.1 hx), hpart.sightings, hpart.byteTotal, hpart.room,
      hpart.inBudget⟩
    by_contra hunfinished
    rw [scanStack, if_pos (Bool.eq_true_of_not_eq_false hunfinished)] at h
    exact hunfinished h

section
variable (hre : Reordered tree tree')
include hre

theorem Reordered.opensAt : opensAt tree' blocked scope = opensAt tree blocked scope := by
  funext x
  rw [Scan.opensAt, Scan.opensAt, rootDevice, rootDevice, hre.lstat]

theorem Reordered.listed : listed tree' budget blocked scope = listed tree budget blocked scope := by
  funext x
  rw [Scan.listed, Scan.listed, hre.opensAt]

theorem Reordered.sightingAt : sightingAt tree' blocked scope = sightingAt tree blocked scope := by
  funext x
  simp only [Scan.sightingAt, hre.lstat]

theorem Reordered.weightAt : weightAt tree' blocked scope = weightAt tree blocked scope := by
  funext x
  simp only [Scan.weightAt, hre.lstat]

theorem Reordered.known : Known tree' scope x ↔ Known tree scope x := by
  rw [Known, Known, hre.lstat]

theorem Reordered.mem_childrenOf {y : List Text} :
    y ∈ childrenOf tree' budget blocked scope x ↔ y ∈ childrenOf tree budget blocked scope x := by
  rw [Scan.mem_childrenOf, Scan.mem_childrenOf, hre.listed]
  refine and_congr_right fun _ => ?_
  have hrel := hre.scandir (scope.normalizedPath ++ x)
  revert hrel
  generalize tree.scandir (scope.normalizedPath ++ x) = a
  generalize tree'.scandir (scope.normalizedPath ++ x) = b
  rintro (⟨hperm⟩ | _)
  · simp [hperm.mem_iff]
  · rfl

theorem Reordered.reachable : Reachable tree' budget blocked scope x ↔ Reachable tree budget blocked scope x := by
  constructor
  · intro h
    induction h with
    | root => exact .root
    | child _ hb ih => exact .child ih (hre.mem_childrenOf.1 hb)
  · intro h
    induction h with
    | root => exact .root
    | child _ hb ih => exact .child ih (hre.mem_childrenOf.2 hb)

theorem Reordered.readable : Readable tree' budget blocked scope x ↔ Readable tree budget blocked scope x := by
  rw [Readable, Readable, hre.listed]
  refine imp_congr_right fun _ => ?_
  have hrel := hre.scandir (scope.normalizedPath ++ x)
  revert hrel
  generalize tree.scandir (scope.normalizedPath ++ x) = a
  generalize tree'.scandir (scope.normalizedPath ++ x) = b
  rintro (_ | _)
  · simp
  · rfl

end

/-- What the walk of one scope needs in order to go through: `part` holds everything below the root. -/
structure Fits (tree : Tree) (budget : ScanBudget) (blocked : List HostPath) (scope : ScopeConfig) (v : Walk)
    (part : List (List Text)) : Prop where
  reachable : ∀ x, Reachable tree budget blocked scope x → x ∈ part
  known : ∀ x ∈ part, Known tree scope x
  readable : ∀ x ∈ part, Readable tree budget blocked scope x
  room : part.length ≤ 1 ∨ (v.sightings.length + part.length : Int) ≤ budget.maxEntries
  bytes : ∀ limit ∈ budget.maxTotalStatBytes,
    v.byteTotal + (part.map (weightAt tree blocked scope)).sum ≤ limit

theorem sum_weightAt_le (tree : Tree) (blocked : List HostPath) (scope : ScopeConfig) {xs ys : List (List Text)} (hnodup : xs.Nodup) (hsub : xs ⊆ ys) :
    xs.length ≤ ys.length ∧
      (xs.map (weightAt tree blocked scope)).sum ≤ (ys.map (weightAt tree blocked scope)).sum := by
  obtain ⟨zs, hperm, hsublist⟩ := List.subperm_of_subset hnodup hsub
  rw [← hperm.length_eq, ← (hperm.map _).sum_eq]
  exact ⟨hsublist.length_le, (hsublist.map _).sum_le_sum (fun _ _ => Nat.zero_le _)⟩

/-- In time, what fits goes through. -/
theorem Fits.isPartial_scanStack {seen : List (List Text)} (hfits : Fits tree budget blocked scope v part)
    (hlate : ∀ n, late n = false) (h : ScopeWalk tree budget blocked scope v w seen) (hunfinished : w.isPartial = false) :
    (scanStack tree late budget blocked scope (rootDevice tree scope) w).isPartial = false := by
  induction w using scanStack.induct tree late budget blocked scope (rootDevice tree scope) generalizing seen with
  | case1 w hyes => exact absurd (hyes.symm.trans hunfinished) (by decide)
  | case2 w _ hstack => rwa [scanStack_nil hstack]
  | case3 w hno directory depth rest hstack hdeep ih =>
    rw [scanStack_cons hunfinished hstack, if_pos hdeep]
    exact ih (h.leave hstack hdeep) hunfinished
  | case4 w hno directory depth rest hstack hdeep hnames =>
    have hexplores := h.explores
    rw [hstack, List.map_cons] at hexplores
    have hlisted : listed tree budget blocked scope directory = true := by
      rw [h.listed_iff hstack, Bool.eq_false_iff.2 hdeep]
      rfl
    have hdirectory := hfits.reachable _ (hexplores.sound _ (hexplores.subset _ List.mem_cons_self))
    obtain ⟨names, hnames'⟩ := hfits.readable _ hdirectory hlisted
    cases hnames.symm.trans hnames'
  | case5 w hno directory depth rest hstack hdeep names hnames ih =>
    rw [scanStack_cons hunfinished hstack, if_neg hdeep, hnames]
    have hexplores := h.explores
    rw [hstack, List.map_cons] at hexplores
    have hlisted : listed tree budget blocked scope directory = true := by
      rw [h.listed_iff hstack, Bool.eq_false_iff.2 hdeep]
      rfl
    have hchildren := childrenOf_eq hlisted hnames
    obtain ⟨hnodup, hsound⟩ := hexplores.next forest_childrenOf
    have hin : seen ++ childrenOf tree budget blocked scope directory ⊆ part := fun x hx =>
      hfits.reachable x (hsound x hx)
    obtain ⟨hlength, hsum⟩ := sum_weightAt_le tree blocked scope hnodup hin
    have hloop : (scanChildren tree late budget blocked scope (rootDevice tree scope) directory depth names
        { w with stack := rest }).isPartial = false := by
      refine isPartial_scanChildren hunfinished hlate (fun name hname => ?_) ?_ fun limit hlimit => ?_
      · exact hfits.known _ (hin (List.mem_append_right _ (hchildren ▸ List.mem_map_of_mem hname)))
      · rw [or_iff_not_imp_left]
        intro hne
        have hpos := List.length_pos_iff.2 hne
        have hstart := List.length_pos_of_mem hexplores.starts
        rw [List.length_append, hchildren, List.length_map] at hlength
        have hroom := hfits.room.resolve_left (by omega)
        have hcount : w.sightings.length = v.sightings.length + seen.length := by
          rw [h.sightings, List.length_append, List.length_map]
        dsimp only
        omega
      · have hbytes := hfits.bytes limit hlimit
        rw [List.map_append, List.sum_append, hchildren, List.map_map] at hsum
        have htotal := h.byteTotal
        dsimp only [Function.comp_def] at hsum ⊢
        omega
    exact ih (h.list hstack (Bool.eq_false_iff.2 hdeep) hnames (scansChildren hloop).2) hloop

/-- The order in which directories are listed does not make a complete walk partial. -/
theorem isPartial_scanScope (hre : Reordered tree tree') (hscans : Scans tree budget blocked w w' scope part)
    (hbudget : InBudget budget w) (hlate : ∀ n, late n = false) (hunfinished : v.isPartial = false)
    (hcount : v.sightings.length = w.sightings.length) (hbytes : v.byteTotal = w.byteTotal) :
    (scanScope tree' late budget blocked v scope).isPartial = false := by
  obtain ⟨info, hinfo⟩ := hscans.known [] ((hscans.reachable []).2 .root)
  rw [List.append_nil] at hinfo
  have hinfo' : tree'.lstat scope.normalizedPath = .ok info := by rw [hre.lstat, hinfo]
  have hfits : Fits tree' budget blocked scope v part :=
    ⟨fun x hx => (hscans.reachable x).2 (hre.reachable.1 hx), fun x hx => hre.known.2 (hscans.known x hx),
      fun x hx => hre.readable.2 (hscans.readable x hx), hscans.room.imp_right fun hroom => by
        rw [hscans.sightings, List.length_append, List.length_map] at hroom
        rw [hcount]
        exact_mod_cast hroom,
      fun limit hlimit => by
        rw [hre.weightAt, hbytes, ← hscans.byteTotal]
        exact hscans.inBudget hbudget limit hlimit⟩
  rw [scanScope, if_neg (by rw [hre.isDir, hscans.isDir]; decide), hinfo']
  dsimp only
  rw [rootDevice_eq hinfo']
  exact hfits.isPartial_scanStack hlate (scopeWalk_root hinfo') hunfinished

end

/-! ## All scopes -/

/-- All scopes are walked to the end, one after the other. -/
inductive ScansAll (tree : Tree) (budget : ScanBudget) (blocked : List HostPath) :
    Walk → Walk → List ScopeConfig → List (List (List Text)) → Prop
  | nil {w : Walk} : ScansAll tree budget blocked w w [] []
  | cons {w w' w'' : Walk} {scope : ScopeConfig} {scopes : List ScopeConfig} {part : List (List Text)}
      {parts : List (List (List Text))} : Scans tree budget blocked w w' scope part →
      ScansAll tree budget blocked w' w'' scopes parts →
      ScansAll tree budget blocked w w'' (scope :: scopes) (part :: parts)

/-- What is seen of the objects of each scope. -/
def allSightings (tree : Tree) (blocked : List HostPath) (scopes : List ScopeConfig)
    (parts : List (List (List Text))) : List Sighting :=
  (List.zipWith (fun scope part => part.map (sightingAt tree blocked scope)) scopes parts).flatten

/-- The objects below the roots, scope by scope, each once. -/
def Parts (tree : Tree) (budget : ScanBudget) (blocked : List HostPath) (scopes : List ScopeConfig)
    (parts : List (List (List Text))) : Prop :=
  List.Forall₂ (fun scope part => part.Nodup ∧ ∀ x, x ∈ part ↔ Reachable tree budget blocked scope x) scopes parts

section
variable {tree' : Tree} {w w' v : Walk} {scopes : List ScopeConfig} {parts parts' : List (List (List Text))}

theorem scansAll_foldl (h : (scopes.foldl (scanScope tree late budget blocked) w).isPartial = false) :
    w.isPartial = false ∧
      ∃ parts, ScansAll tree budget blocked w (scopes.foldl (scanScope tree late budget blocked) w) scopes parts := by
  induction scopes generalizing w with
  | nil => exact ⟨h, [], .nil⟩
  | cons scope scopes ih =>
    obtain ⟨hunfinished, parts, hparts⟩ := ih h
    obtain ⟨hw, part, hpart⟩ := scans_scanScope hunfinished
    exact ⟨hw, part :: parts, .cons hpart hparts⟩

theorem ScansAll.exact (h : ScansAll tree budget blocked w w' scopes parts) :
    Parts tree budget blocked scopes parts := by
  induction h with
  | nil => exact .nil
  | cons hscans _ ih => exact .cons ⟨hscans.nodup, hscans.reachable⟩ ih

theorem ScansAll.sightings (h : ScansAll tree budget blocked w w' scopes parts) :
    w'.sightings = w.sightings ++ allSightings tree blocked scopes parts := by
  induction h with
  | nil => exact (List.append_nil _).symm
  | cons hscans _ ih => rw [ih, hscans.sightings, List.append_assoc]; rfl

/-- In time, another order goes through as well. -/
theorem ScansAll.isPartial_foldl (h : ScansAll tree budget blocked w w' scopes parts) (hre : Reordered tree tree')
    (hbudget : InBudget budget w) (hlate : ∀ n, late n = false) (hunfinished : v.isPartial = false)
    (hcount : v.sightings.length = w.sightings.length) (hbytes : v.byteTotal = w.byteTotal) :
    (scopes.foldl (scanScope tree' late budget blocked) v).isPartial = false := by
  induction h generalizing v with
  | nil => exact hunfinished
  | @cons w w₁ w₂ scope scopes part parts hscans _ ih =>
    have hstep := isPartial_scanScope hre hscans hbudget hlate hunfinished hcount hbytes
    obtain ⟨-, part', hpart'⟩ := scans_scanScope hstep
    have hperm : part'.Perm part := (List.perm_ext_iff_of_nodup hpart'.nodup hscans.nodup).2 fun x =>
      (hpart'.reachable x).trans (hre.reachable.trans (hscans.reachable x).symm)
    refine ih (hscans.inBudget hbudget) hstep ?_ ?_
    · rw [hpart'.sightings, hscans.sightings, List.length_append, List.length_append, List.length_map,
        List.length_map, hcount, hperm.length_eq]
    · rw [hpart'.byteTotal, hscans.byteTotal, hbytes, hre.weightAt, (hperm.map _).sum_eq]

/-- Two lists of the objects of the scopes hold the same. -/
theorem Parts.perm (hre : Reordered tree tree') (h : Parts tree budget blocked scopes parts)
    (h' : Parts tree' budget blocked scopes parts') :
    (allSightings tree blocked scopes parts).Perm (allSightings tree' blocked scopes parts') := by
  induction h generalizing parts' with
  | nil =>
    cases h'
    exact .refl _
  | @cons scope part scopes parts hpart _ ih =>
    obtain ⟨part', parts', hpart', hrest, rfl⟩ := List.forall₂_cons_left_iff.1 h'
    have hperm : part.Perm part' := (List.perm_ext_iff_of_nodup hpart.1 hpart'.1).2 fun x =>
      (hpart.2 x).trans (hre.reachable.symm.trans (hpart'.2 x).symm)
    rw [allSightings, allSightings, List.zipWith_cons_cons, List.zipWith_cons_cons, List.flatten_cons,
      List.flatten_cons, hre.sightingAt]
    exact (hperm.map _).append (ih hrest)

theorem mem_allSightings {s : Sighting} (h : Parts tree budget blocked scopes parts)
    (hs : s ∈ allSightings tree blocked scopes parts) :
    s.scope ∈ scopes ∧ Reachable tree budget blocked s.scope s.below ∧ s = sightingAt tree blocked s.scope s.below := by
  induction h with
  | nil => cases hs
  | @cons scope part scopes parts hpart _ ih =>
    rw [allSightings, List.zipWith_cons_cons, List.flatten_cons] at hs
    rcases List.mem_append.1 hs with hs | hs
    · obtain ⟨x, hx, rfl⟩ := List.mem_map.1 hs
      exact ⟨List.mem_cons_self, (hpart.2 x).1 hx, rfl⟩
    · exact (ih hs).imp_left (List.mem_cons_of_mem _)

end

/-! ## Entries -/

section
variable {snapshotId : Text} {s : Sighting} {e : ScannedEntry}

theorem ok_entryOf : Ok (entryOf tree snapshotId s) ↔
    (entryIdText snapshotId s.scope.scopeId (relativeText s.below)).encodable = true := by
  unfold entryOf Text.encode
  cases hencodable : (entryIdText snapshotId s.scope.scopeId (relativeText s.below)).encodable with
  | false => exact iff_of_false (not_ok_error _) Bool.false_ne_true
  | true => exact iff_of_true (ok_ok _) rfl

theorem entryOf_eq_ok (h : entryOf tree snapshotId s = .ok e) :
    e.entry.scopeId = s.scope.scopeId ∧ e.entry.relativePath = relativeText s.below ∧
      (relativeText s.below).encodable = true := by
  have hencodable := ok_entryOf.1 ⟨e, h⟩
  simp only [entryIdText, Text.encodable_append] at hencodable
  refine ⟨?_, ?_, hencodable.2⟩
  all_goals
    unfold entryOf at h
    split at h
    · cases h
    · cases h
      dsimp only
      split <;> rfl

theorem ok_entrySortKey (h : entryOf tree snapshotId s = .ok e) : Ok (entrySortKey e.entry) := by
  obtain ⟨-, hpath, hencodable⟩ := entryOf_eq_ok h
  rw [entrySortKey, hpath, pathBytes_of_encodable hencodable]
  exact ok_ok _

theorem relativeText_inj {a b : List Text} (ha : ∀ n ∈ a, IsName n) (hb : ∀ n ∈ b, IsName n)
    (h : relativeText a = relativeText b) : a = b := by
  have hcomponents {ns : List Text} (hns : ∀ n ∈ ns, IsName n) (hne : ns ≠ []) :
      Path.components (relativeText ns) = ns := by
    rw [relativeText, if_neg hne]
    exact PurePath.components_intercalate (fun n hn => (hns n hn).2.1) hne
  have hroot : Path.components (relativeText []) = [txt "."] := by decide
  have hdot {ns : List Text} (hns : ∀ n ∈ ns, IsName n) (hne : ns ≠ []) : relativeText ns ≠ relativeText [] := by
    intro heq
    rw [← heq, hcomponents hns hne] at hroot
    exact (hns (txt ".") (hroot ▸ List.mem_singleton_self _)).2.2 rfl
  by_cases hae : a = []
  · subst hae
    by_contra hne
    exact hdot hb (Ne.symm hne) h.symm
  by_cases hbe : b = []
  · subst hbe
    exact absurd h (hdot ha hae)
  rw [← hcomponents ha hae, h, hcomponents hb hbe]

theorem Reordered.entryOf {tree' : Tree} (hre : Reordered tree tree') :
    entryOf tree' snapshotId = entryOf tree snapshotId := by
  funext s
  simp only [Scan.entryOf, hre.readlink, hre.access]

end

section
variable {config : StewardConfig} {requested : List Text} {scopes : List ScopeConfig} {snapshotId : Text}
  {entries es : List ScannedEntry} {isPartial : Bool}

theorem scan_eq_ok : scan tree late budget config snapshotId scopes = .ok (entries, isPartial) ↔
    ∃ es, (scanWalk tree late budget config scopes).sightings.mapM (entryOf tree snapshotId) = .ok es ∧
      sortedByM (fun e => entrySortKey e.entry) es = .ok entries ∧
      (scanWalk tree late budget config scopes).isPartial = isPartial := by
  unfold scan
  simp only [bind_eq_ok, pure_eq_ok, Prod.mk.injEq]
  constructor
  · rintro ⟨es, hes, _, hordered, rfl, rfl⟩
    exact ⟨es, hes, hordered, rfl⟩
  · rintro ⟨es, hes, hordered, rfl⟩
    exact ⟨es, hes, entries, hordered, rfl, rfl⟩

/-- Selected scopes are told apart by their ids, as the scopes of the configuration are. -/
theorem selectScopes_inj (hselect : selectScopes config requested = .ok scopes)
    (hids : (config.scopes.map ScopeConfig.scopeId).Nodup) {a b : ScopeConfig} (ha : a ∈ scopes) (hb : b ∈ scopes)
    (h : a.scopeId = b.scopeId) : a = b := by
  have hsub : ∀ x ∈ scopes, x ∈ config.scopes := by
    intro x hx
    unfold selectScopes at hselect
    dsimp only at hselect
    split_ifs at hselect
    cases hselect
    have hin := mem_sortedBy.1 hx
    unfold StewardConfig.selected at hin
    split_ifs at hin
    · exact List.mem_of_mem_filter hin
    · obtain ⟨_, -, hfound⟩ := List.mem_filterMap.1 hin
      exact List.mem_reverse.1 (List.mem_of_find?_eq_some hfound)
  exact List.inj_on_of_nodup_map hids (hsub a ha) (hsub b hb) h

end

/-! ## The number of entries -/

section
variable {w w' : Walk} {scopes : List ScopeConfig} {directory : List Text} {depth device : Int} {names : List Text}

/-- A step that forgets nothing, and adds no more than there is room for. -/
structure Records (budget : ScanBudget) (w w' : Walk) : Prop where
  keeps : w.sightings.length ≤ w'.sightings.length
  room : (w.sightings.length : Int) ≤ budget.maxEntries → (w'.sightings.length : Int) ≤ budget.maxEntries

theorem Records.of_eq (h : w'.sightings = w.sightings) : Records budget w w' := by
  constructor <;> rw [h]
  exact id

theorem Records.trans {w'' : Walk} (h : Records budget w w') (h' : Records budget w' w'') : Records budget w w'' :=
  ⟨h.keeps.trans h'.keeps, fun hroom => h'.room (h.room hroom)⟩

theorem Records.one {s : Sighting} (hroom : ¬ budget.maxEntries ≤ w.sightings.length)
    (h : w'.sightings = w.sightings ++ [s]) : Records budget w w' := by
  constructor <;> rw [h, List.length_append, List.length_singleton]
  · omega
  · intro _
    push_cast
    omega

theorem records_scanChildren :
    Records budget w (scanChildren tree late budget blocked scope device directory depth names w) := by
  induction names generalizing w with
  | nil => exact .of_eq rfl
  | cons name names ih =>
    unfold scanChildren
    split_ifs with hfull hlate
    · exact .of_eq rfl
    · exact .of_eq rfl
    dsimp only
    split
    · exact (Records.one hfull rfl).trans ih
    · split_ifs
      · exact .one hfull rfl
      · exact (Records.one hfull rfl).trans ih
      · exact (Records.one hfull rfl).trans ih

theorem records_scanStack : Records budget w (scanStack tree late budget blocked scope device w) := by
  induction w using scanStack.induct tree late budget blocked scope device with
  | case1 w hyes =>
    rw [scanStack, if_pos hyes]
    exact .of_eq rfl
  | case2 w hno hstack =>
    rw [scanStack_nil hstack]
    exact .of_eq rfl
  | case3 w hno directory depth rest hstack hdeep ih =>
    rw [scanStack_cons (Bool.eq_false_iff.2 hno) hstack, if_pos hdeep]
    exact ⟨ih.keeps, ih.room⟩
  | case4 w hno directory depth rest hstack hdeep hnames =>
    rw [scanStack_cons (Bool.eq_false_iff.2 hno) hstack, if_neg hdeep, hnames]
    exact .of_eq rfl
  | case5 w hno directory depth rest hstack hdeep names hnames ih =>
    rw [scanStack_cons (Bool.eq_false_iff.2 hno) hstack, if_neg hdeep, hnames]
    have hchildren := records_scanChildren.trans ih
    exact ⟨hchildren.keeps, hchildren.room⟩

/-- The root of a scope is recorded whatever the room. -/
theorem scanScope_of_isDir (late : Nat → Bool) (budget : ScanBudget) (blocked : List HostPath) (w : Walk)
    (hdir : tree.isDir scope.normalizedPath = true) :
    ∃ w', w'.sightings.length = w.sightings.length + 1 ∧
      Records budget w' (scanScope tree late budget blocked w scope) := by
  unfold scanScope
  rw [if_neg (by rw [hdir]; decide)]
  cases tree.lstat scope.normalizedPath with
  | error fault => exact ⟨_, List.length_append, .of_eq rfl⟩
  | ok info => exact ⟨_, List.length_append, records_scanStack⟩

theorem scanScope_of_not_isDir (hdir : tree.isDir scope.normalizedPath = false) :
    scanScope tree late budget blocked w scope = { w with isPartial := true } := by
  rw [scanScope, if_pos hdir]

/-- Whenever the walk comes to a root that is a directory, there is room for it. -/
def RootsFit (tree : Tree) (late : Nat → Bool) (budget : ScanBudget) (blocked : List HostPath) :
    List ScopeConfig → Walk → Prop
  | [], _ => True
  | scope :: scopes, w =>
    (tree.isDir scope.normalizedPath = true → (w.sightings.length : Int) < budget.maxEntries) ∧
      RootsFit tree late budget blocked scopes (scanScope tree late budget blocked w scope)

theorem keeps_foldl : w.sightings.length ≤
    (scopes.foldl (scanScope tree late budget blocked) w).sightings.length := by
  induction scopes generalizing w with
  | nil => exact Nat.le_refl _
  | cons scope scopes ih =>
    refine Nat.le_trans ?_ ih
    cases hdir : tree.isDir scope.normalizedPath with
    | false => rw [scanScope_of_not_isDir hdir]
    | true =>
      obtain ⟨w', hlength, hrecords⟩ := scanScope_of_isDir late budget blocked w hdir
      exact (by omega : w.sightings.length ≤ w'.sightings.length).trans hrecords.keeps

/-- The number of entries is kept to when there is room for every root. -/
theorem rootsFit_iff (hw : (w.sightings.length : Int) ≤ budget.maxEntries) :
    RootsFit tree late budget blocked scopes w ↔
      ((scopes.foldl (scanScope tree late budget blocked) w).sightings.length : Int) ≤ budget.maxEntries := by
  induction scopes generalizing w with
  | nil => exact iff_of_true trivial hw
  | cons scope scopes ih =>
    rw [RootsFit, List.foldl_cons]
    cases hdir : tree.isDir scope.normalizedPath with
    | false =>
      rw [ih (by rw [scanScope_of_not_isDir hdir]; exact hw)]
      exact and_iff_right fun h => nomatch h
    | true =>
      obtain ⟨w', hlength, hrecords⟩ := scanScope_of_isDir late budget blocked w hdir
      by_cases hroom : (w.sightings.length : Int) < budget.maxEntries
      · rw [ih (hrecords.room (by omega))]
        exact and_iff_right fun _ => hroom
      · refine iff_of_false (fun h => hroom (h.1 rfl)) fun h => ?_
        have hkeeps : (scanScope tree late budget blocked w scope).sightings.length ≤ (scopes.foldl
            (scanScope tree late budget blocked) (scanScope tree late budget blocked w scope)).sightings.length :=
          keeps_foldl
        have := hrecords.keeps
        omega

end

/-! ## The law -/

/-- The entries are those of the objects below the roots, each once a scope. -/
def Exact (tree : Tree) (budget : ScanBudget) (config : StewardConfig) (snapshotId : Text)
    (scopes : List ScopeConfig) (entries : List ScannedEntry) : Prop :=
  ∃ parts es, Parts tree budget config.blocked scopes parts ∧
    (allSightings tree config.blocked scopes parts).mapM (entryOf tree snapshotId) = .ok es ∧ entries.Perm es

/-- A scan returns no more entries than asked for. One that is not partial has all objects, each once, and
another order of the listings changes nothing. -/
def ScanLaw (tree : Tree) (late : Nat → Bool) (budget : ScanBudget) (config : StewardConfig) (snapshotId : Text)
    (scopes : List ScopeConfig) : Prop :=
  ∃ entries isPartial, scan tree late budget config snapshotId scopes = .ok (entries, isPartial) ∧
    (entries.length : Int) ≤ budget.maxEntries ∧
    (isPartial = false → Exact tree budget config snapshotId scopes entries ∧
      ∀ tree', Reordered tree tree' →
        scan tree' (fun _ => false) budget config snapshotId scopes = .ok (entries, false) ∧
        ∀ late' entries', scan tree' late' budget config snapshotId scopes = .ok (entries', false) →
          entries' = entries)

/-- The identity of everything the walk comes to can be hashed. -/
def Nameable (tree : Tree) (late : Nat → Bool) (budget : ScanBudget) (config : StewardConfig) (snapshotId : Text)
    (scopes : List ScopeConfig) : Prop :=
  ∀ s ∈ (scanWalk tree late budget config scopes).sightings,
    (entryIdText snapshotId s.scope.scopeId (relativeText s.below)).encodable = true

section
variable {config : StewardConfig} {requested : List Text} {scopes : List ScopeConfig} {snapshotId : Text}
  {entries : List ScannedEntry} {isPartial : Bool}

theorem ok_scan : Ok (scan tree late budget config snapshotId scopes) ↔
    Nameable tree late budget config snapshotId scopes := by
  constructor
  · rintro ⟨⟨entries, isPartial⟩, h⟩
    obtain ⟨es, hes, -⟩ := scan_eq_ok.1 h
    exact fun s hs => ok_entryOf.1 (ok_mapM.1 ⟨es, hes⟩ s hs)
  · intro h
    obtain ⟨es, hes⟩ := ok_mapM.2 fun s hs => ok_entryOf.2 (h s hs)
    obtain ⟨entries, hordered⟩ : Ok (sortedByM (fun e => entrySortKey e.entry) es) :=
      ok_sortedByM.2 fun e he => by
        obtain ⟨s, -, hs⟩ := exists_of_mem_mapM hes he
        exact ok_entrySortKey hs
    exact ⟨_, scan_eq_ok.2 ⟨es, hes, hordered, rfl⟩⟩

/-- The entries are as many as the objects seen. -/
theorem length_scan (h : scan tree late budget config snapshotId scopes = .ok (entries, isPartial)) :
    entries.length = (scanWalk tree late budget config scopes).sightings.length := by
  obtain ⟨es, hes, hordered, -⟩ := scan_eq_ok.1 h
  rw [(sortedByM_perm hordered).length_eq, length_of_mapM hes]

theorem inBudget_start : InBudget budget .start := fun limit hlimit => budget.bytes_nonneg limit hlimit

/-- A scan that is not partial saw the objects of all scopes. -/
theorem exact_of_complete (h : scan tree late budget config snapshotId scopes = .ok (entries, false)) :
    ∃ parts es, ScansAll tree budget config.blocked .start (scanWalk tree late budget config scopes) scopes parts ∧
      (allSightings tree config.blocked scopes parts).mapM (entryOf tree snapshotId) = .ok es ∧
      sortedByM (fun e => entrySortKey e.entry) es = .ok entries := by
  obtain ⟨es, hes, hordered, hunfinished⟩ := scan_eq_ok.1 h
  obtain ⟨-, parts, hparts⟩ := scansAll_foldl hunfinished
  have hsightings := hparts.sightings
  rw [show Walk.start.sightings = [] from rfl, List.nil_append] at hsightings
  exact ⟨parts, es, hparts, hsightings ▸ hes, hordered⟩

/-- The sort key tells the entries of different objects apart. -/
theorem entrySortKey_inj (hscopes : ∀ a ∈ scopes, ∀ b ∈ scopes, a.scopeId = b.scopeId → a = b)
    {parts : List (List (List Text))} (hparts : Parts tree budget blocked scopes parts) {es : List ScannedEntry}
    (hes : (allSightings tree blocked scopes parts).mapM (entryOf tree snapshotId) = .ok es) {x y : ScannedEntry}
    (hx : x ∈ es) (hy : y ∈ es) (h : entrySortKey x.entry = entrySortKey y.entry) : x = y := by
  obtain ⟨s, hs, hxs⟩ := exists_of_mem_mapM hes hx
  obtain ⟨t, ht, hyt⟩ := exists_of_mem_mapM hes hy
  obtain ⟨hsin, hsreach, hseq⟩ := mem_allSightings hparts hs
  obtain ⟨htin, htreach, hteq⟩ := mem_allSightings hparts ht
  obtain ⟨hxscope, hxpath, hxenc⟩ := entryOf_eq_ok hxs
  obtain ⟨hyscope, hypath, hyenc⟩ := entryOf_eq_ok hyt
  rw [entrySortKey, entrySortKey, hxpath, hypath, pathBytes_of_encodable hxenc, pathBytes_of_encodable hyenc,
    hxscope, hyscope] at h
  obtain ⟨hid, hbytes⟩ := Prod.mk.inj (toLex.injective (Except.ok.inj h))
  have hscope := hscopes _ hsin _ htin hid
  have hbelow := relativeText_inj (isName_of_reachable hsreach) (isName_of_reachable htreach)
    (Text.utf8_injective hbytes)
  rw [hseq, hscope, hbelow, ← hteq, hyt] at hxs
  exact (Except.ok.inj hxs).symm

/-- Whatever the order, the sorted entries are the same. -/
theorem entries_eq (hscopes : ∀ a ∈ scopes, ∀ b ∈ scopes, a.scopeId = b.scopeId → a = b) {tree' : Tree}
    (hre : Reordered tree tree') {late' : Nat → Bool} {entries' : List ScannedEntry}
    (h : scan tree late budget config snapshotId scopes = .ok (entries, false))
    (h' : scan tree' late' budget config snapshotId scopes = .ok (entries', false)) : entries' = entries := by
  obtain ⟨parts, es, hparts, hes, hordered⟩ := exact_of_complete h
  obtain ⟨parts', es', hparts', hes', hordered'⟩ := exact_of_complete h'
  rw [hre.entryOf] at hes'
  obtain ⟨es'', hes'', hperm⟩ := mapM_perm (hparts.exact.perm hre hparts'.exact) hes
  obtain rfl : es'' = es' := Except.ok.inj (hes''.symm.trans hes')
  have hsame := sortedByM_of_perm hordered hperm fun x hx y hy hkey => entrySortKey_inj hscopes hparts.exact hes hx hy hkey
  exact Except.ok.inj (hordered'.symm.trans hsame)

/-- In time, another order of the listings gives the same. -/
theorem scan_reordered (hscopes : ∀ a ∈ scopes, ∀ b ∈ scopes, a.scopeId = b.scopeId → a = b) {tree' : Tree}
    (hre : Reordered tree tree') (h : scan tree late budget config snapshotId scopes = .ok (entries, false)) :
    scan tree' (fun _ => false) budget config snapshotId scopes = .ok (entries, false) := by
  obtain ⟨parts, es, hparts, hes, -⟩ := exact_of_complete h
  have hunfinished : (scanWalk tree' (fun _ => false) budget config scopes).isPartial = false :=
    hparts.isPartial_foldl hre inBudget_start (fun _ => rfl) rfl rfl rfl
  obtain ⟨-, parts', hparts'⟩ := scansAll_foldl hunfinished
  have hnameable : Nameable tree' (fun _ => false) budget config snapshotId scopes := by
    intro s hs
    have hsightings : (scanWalk tree' (fun _ => false) budget config scopes).sightings =
        [] ++ allSightings tree' config.blocked scopes parts' := hparts'.sightings
    rw [hsightings, List.nil_append] at hs
    have hin := (hparts.exact.perm hre hparts'.exact).mem_iff.2 hs
    exact ok_entryOf.1 (ok_mapM.1 ⟨es, hes⟩ s hin)
  obtain ⟨⟨entries', isPartial'⟩, h'⟩ := ok_scan.2 hnameable
  obtain ⟨-, -, -, hfalse⟩ := scan_eq_ok.1 h'
  obtain rfl : false = isPartial' := hunfinished.symm.trans hfalse
  rw [h', entries_eq hscopes hre h h']

end

end

/-! ## Empty roots -/

def emptyDirectory : StatResult := ⟨0o040755, 1, 2, 0, 0, 0, 0, 0, none, 2⟩

/-- Every path is an empty directory. -/
def emptyDirectories : Tree where
  isDir _ := true
  lstat _ := .ok emptyDirectory
  scandir _ := some []
  readlink _ := none
  access _ := ⟨true, true, true⟩
  names_nodup _ _ h := Option.some.inj h ▸ List.nodup_nil
  names_isName _ _ h := Option.some.inj h ▸ List.forall_mem_nil _

def rootScope (name : String) : ScopeConfig :=
  ⟨txt name, .managedRoot, txt "/" ++ txt name, [txt name], true, false, false⟩

def twoRoots : StewardConfig :=
  ⟨[rootScope "a", rootScope "b"], ⟨[txt "data"], [txt "cache"], [txt "evidence"], [txt "quarantine"]⟩⟩

def oneEntry : ScanBudget := ⟨1, none, none, le_refl _, nofun, nofun⟩

end Steward.Scan
