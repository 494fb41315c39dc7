import PocketShell.Proofs.Calls
import PocketShell.Proofs.PathText
import PocketShell.Proofs.Walking

/-!
# Mazes

Trees in which given names lead on whatever is walked. Behind a gate lie halls: in each of them all
the names stand for halls again, there is a dead end, and there is a prize, which may be run. In
front of the gate lie crossings, where the names lead on for so many levels and then, by a link, to
a dead end that lies deep in the halls. So who goes back at the dead end is in the halls, and who
does not go back never finds the prize.
-/

namespace PocketShell

open FileTree

/-- There are names besides any given ones. -/
theorem Name.exists_not_mem (names : List Name) : ∃ n : Name, n ∉ names := by
  have hbound : ∃ k, ∀ n ∈ names, n.text.length < k := by
    induction names with
    | nil => exact ⟨0, by simp⟩
    | cons n rest ih =>
      obtain ⟨k, hk⟩ := ih
      refine ⟨max k (n.text.length + 1), fun m hm => ?_⟩
      rcases List.mem_cons.1 hm with rfl | hm
      · omega
      · have := hk m hm
        omega
  obtain ⟨k, hk⟩ := hbound
  have hlong (t : Text) (ht : t.length < k + 3) : List.replicate (k + 3) 'x' ≠ t := by
    rintro rfl
    simp at ht
  have honly (c : Char) (hc : c ≠ 'x') : c ∉ List.replicate (k + 3) 'x' := by
    simp [List.mem_replicate, hc]
  refine ⟨⟨List.replicate (k + 3) 'x', hlong _ (by simp), honly _ (by decide), honly _ (by decide),
    hlong _ (by simp), hlong _ (by simp)⟩, fun hm => ?_⟩
  have := hk _ hm
  simp only [List.length_replicate] at this
  omega

/-- What a maze is built from. Paths of the names and of no more components than its reach cannot
leave the halls. -/
structure Maze where
  names : List Name
  reach : Nat
  gate : Name
  deadEnd : Name
  prize : Name
  gate_not_mem : gate ∉ names
  deadEnd_not_mem : deadEnd ∉ gate :: names
  prize_not_mem : prize ∉ deadEnd :: gate :: names

namespace Maze

/-- All the names stand for one entry with one tree below it, before other names. -/
def spread (names : List Name) (e : Entry) (below others : FileTree) : FileTree :=
  names.foldr (fun n t => .cons n e below t) others

theorem lookup_spread_of_mem {names : List Name} {n : Name} (h : n ∈ names) (e : Entry)
    (below others : FileTree) : (spread names e below others).lookup n = some (e, below) := by
  induction names with
  | nil => simp at h
  | cons m rest ih =>
    by_cases hm : m = n
    · simp [spread, lookup, hm]
    · have hrest : n ∈ rest := (List.mem_cons.1 h).resolve_left (Ne.symm hm)
      simpa [spread, lookup, hm] using ih hrest

theorem lookup_spread_of_not_mem {names : List Name} {n : Name} (h : n ∉ names) (e : Entry)
    (below others : FileTree) : (spread names e below others).lookup n = others.lookup n := by
  induction names with
  | nil => rfl
  | cons m rest ih =>
    rw [List.mem_cons, not_or] at h
    simpa [spread, lookup, Ne.symm h.1] using ih h.2

variable (z : Maze)

/-- The names that lead from hall to hall. -/
def doors : List Name := z.gate :: z.names

/-- So many halls one below another. -/
def halls : Nat → FileTree
  | 0 => .empty
  | depth + 1 => spread z.doors (.directory .all) (halls depth)
      (.cons z.deadEnd (.directory .all) .empty
        (.cons z.prize (.file .all [] .idle) .empty .empty))

/-- How many halls there are one below another. -/
def depth : Nat := 2 * z.reach + 2

/-- The names on the way from behind the gate to a hall that is too deep to be left within reach. -/
def aisle : Location := List.replicate (z.reach + 1) z.gate

/-- The hall at the end of the aisle. -/
def start : Location := z.aisle ++ [z.gate]

def toDeadEnd : LinkTarget where
  text := Path.ofLocation (z.deadEnd :: z.start)
  no_nul := Path.no_nul_ofLocation _

/-- The names, leading on for so many levels and then to the dead end below the start. -/
def crossings : Nat → FileTree
  | 0 => .empty
  | 1 => spread z.names (.link (toDeadEnd z)) .empty .empty
  | levels + 2 => spread z.names (.directory .all) (crossings (levels + 1)) .empty

/-- The halls behind the gate, and the crossings in front of it. -/
def tree (permissions : Permissions) (levels : Nat) : FileTree :=
  .cons z.gate (.directory permissions) (z.halls z.depth) (z.crossings levels)

variable {z : Maze} {s : Location} {n : Name} {path : List Component} {permissions : Permissions}
variable {depth levels : Nat}

theorem lookup_halls_of_mem (h : n ∈ z.doors) :
    (z.halls (depth + 1)).lookup n = some (.directory .all, z.halls depth) :=
  lookup_spread_of_mem h _ _ _

theorem lookup_halls_deadEnd :
    (z.halls (depth + 1)).lookup z.deadEnd = some (.directory .all, .empty) := by
  have h : z.deadEnd ∉ z.doors := z.deadEnd_not_mem
  rw [halls, lookup_spread_of_not_mem h, lookup, if_pos rfl]

theorem lookup_halls_prize :
    (z.halls (depth + 1)).lookup z.prize = some (.file .all [] .idle, .empty) := by
  have h : z.prize ≠ z.deadEnd ∧ z.prize ∉ z.doors := not_or.1 (mt List.mem_cons.2 z.prize_not_mem)
  rw [halls, lookup_spread_of_not_mem h.2, lookup, if_neg (Ne.symm h.1), lookup, if_pos rfl]

theorem lookup_tree_of_ne (h : n ≠ z.gate) :
    (z.tree permissions levels).lookup n = (z.crossings levels).lookup n := by
  rw [tree, lookup, if_neg (Ne.symm h)]

theorem searches_root (z : Maze) (permissions : Permissions) (levels : Nat) :
    (z.tree permissions levels).Searches .root (z.tree permissions levels) :=
  ⟨.all, rfl, rfl⟩

theorem contents?_halls (hs : ∀ n ∈ s, n ∈ z.doors) (hdepth : s.length ≤ z.depth) :
    (z.tree permissions levels).contents? (s ++ [z.gate]) =
      some (if s = [] then permissions else .all, z.halls (z.depth - s.length)) := by
  induction s with
  | nil => simp [contents?, tree, lookup, directory?]
  | cons n s ih =>
    rw [List.forall_mem_cons] at hs
    rw [List.length_cons] at hdepth
    obtain ⟨k, hk⟩ : ∃ k, z.depth - s.length = k + 1 := ⟨z.depth - s.length - 1, by omega⟩
    have hbelow : z.depth - (n :: s).length = k := by
      rw [List.length_cons]
      omega
    rw [hbelow, List.cons_append, contents?, ih hs.2 (by omega), hk]
    simp [lookup_halls_of_mem hs.1, directory?]

theorem searches_halls (permissions : Permissions) (levels : Nat) (hs : ∀ n ∈ s, n ∈ z.doors)
    (hdepth : s.length ≤ z.depth) (hx : s = [] → permissions.execute = true) :
    (z.tree permissions levels).Searches (.live (s ++ [z.gate]))
      (z.halls (z.depth - s.length)) := by
  refine ⟨_, contents?_halls hs hdepth, ?_⟩
  split
  · next h => exact hx h
  · rfl

/-- The way through the halls leads there, if the gate is open. -/
theorem leads_location (levels : Nat) (hx : permissions.execute = true) (hs : ∀ n ∈ s, n ∈ z.doors)
    (hdepth : s.length ≤ z.depth) :
    (z.tree permissions levels).Leads .root ((s ++ [z.gate]).reverse.map .name) 0
      (.live (s ++ [z.gate])) := by
  induction s with
  | nil =>
    have hgate : (z.tree permissions levels).lookup z.gate =
        some (.directory permissions, z.halls z.depth) := by simp [tree, lookup]
    exact .name (searches_root z permissions levels) hgate (by simp)
  | cons n s ih =>
    rw [List.forall_mem_cons] at hs
    rw [List.length_cons] at hdepth
    have hsearch := searches_halls permissions levels hs.2 (by omega)
      fun _ => hx
    obtain ⟨k, hk⟩ : ∃ k, z.depth - s.length = k + 1 := ⟨z.depth - s.length - 1, by omega⟩
    rw [hk] at hsearch
    rw [List.cons_append, List.reverse_cons, List.map_append]
    exact (ih hs.2 (by omega)).append (.name hsearch (lookup_halls_of_mem hs.1) (by simp))

theorem length_aisle (z : Maze) : z.aisle.length = z.reach + 1 := List.length_replicate

theorem mem_doors_of_mem_aisle (z : Maze) : ∀ n ∈ z.aisle, n ∈ z.doors := fun _ h =>
  List.eq_of_mem_replicate h ▸ List.mem_cons_self

theorem length_aisle_le (z : Maze) : z.aisle.length ≤ z.depth := by
  rw [length_aisle, Maze.depth]
  omega

theorem exists_searches_start (z : Maze) (permissions : Permissions) (levels : Nat) :
    ∃ k, (z.tree permissions levels).Searches (.live z.start) (z.halls (k + 1)) := by
  have hdepth : z.depth - z.aisle.length = z.reach + 1 := by
    rw [length_aisle, Maze.depth]
    omega
  have hsearch := searches_halls permissions levels
    z.mem_doors_of_mem_aisle z.length_aisle_le fun h => by simp [aisle] at h
  rw [hdepth] at hsearch
  exact ⟨z.reach, hsearch⟩

theorem searches_deadEnd (z : Maze) (permissions : Permissions) (levels : Nat) :
    (z.tree permissions levels).Searches (.live (z.deadEnd :: z.start)) .empty := by
  obtain ⟨k, hk⟩ := exists_searches_start z permissions levels
  exact hk.searches_name lookup_halls_deadEnd rfl

theorem leads_deadEnd (p : Place) (hx : permissions.execute = true) :
    (z.tree permissions levels).Leads (linkOrigin p z.toDeadEnd) z.toDeadEnd.way 0
      (.live (z.deadEnd :: z.start)) := by
  obtain ⟨k, hk⟩ := exists_searches_start z permissions levels
  have hstart := leads_location levels hx z.mem_doors_of_mem_aisle z.length_aisle_le
  have hway : z.toDeadEnd.way = (z.deadEnd :: z.start).reverse.map .name := Path.way_ofLocation _ _
  have horigin : linkOrigin p z.toDeadEnd = .root := if_pos (Path.isAbsolute_ofLocation _)
  rw [horigin, hway, List.reverse_cons, List.map_append]
  exact hstart.append (.name hk lookup_halls_deadEnd (by simp))

/-- One component leads from a hall to a hall just above, just below, or to the same. -/
theorem leads_hall (permissions : Permissions) (levels : Nat) (hs : ∀ n ∈ s, n ∈ z.doors)
    (hlow : 1 < s.length) (hhigh : s.length < z.depth) {c : Component}
    (hc : ∀ n, c = .name n → n ∈ z.names) :
    ∃ s', (∀ n ∈ s', n ∈ z.doors) ∧ s.length ≤ s'.length + 1 ∧ s'.length ≤ s.length + 1 ∧
      (z.tree permissions levels).Leads (.live (s ++ [z.gate])) [c] 0
        (.live (s' ++ [z.gate])) := by
  have hne : s ≠ [] := List.ne_nil_of_length_pos (by omega)
  have hsearch := searches_halls permissions levels hs (by omega) fun h => absurd h hne
  cases c with
  | here => exact ⟨s, hs, by omega, by omega, .here hsearch⟩
  | nothing =>
    obtain ⟨permissions', hheld, -⟩ := hsearch
    exact ⟨s, hs, by omega, by omega, .nothing hheld⟩
  | up =>
    cases s with
    | nil => exact absurd rfl hne
    | cons n s =>
      rw [List.forall_mem_cons] at hs
      refine ⟨s, hs.2, ?_, ?_, .up hsearch⟩
      · exact Nat.le_of_eq List.length_cons
      · rw [List.length_cons]
        omega
  | name n =>
    have hn : n ∈ z.doors := List.mem_cons_of_mem _ (hc n rfl)
    obtain ⟨k, hk⟩ : ∃ k, z.depth - s.length = k + 1 := ⟨z.depth - s.length - 1, by omega⟩
    rw [hk] at hsearch
    refine ⟨n :: s, List.forall_mem_cons.2 ⟨hn, hs⟩, ?_, ?_,
      .name hsearch (lookup_halls_of_mem hn) (by simp)⟩
    · rw [List.length_cons]
      omega
    · exact Nat.le_of_eq List.length_cons

/-- A path within reach leads from a hall to a hall. -/
theorem leads_halls (permissions : Permissions) (levels : Nat) (hs : ∀ n ∈ s, n ∈ z.doors)
    (hlow : path.length < s.length) (hhigh : s.length + path.length ≤ z.depth)
    (hpath : ∀ n, .name n ∈ path → n ∈ z.names) :
    ∃ s', (∀ n ∈ s', n ∈ z.doors) ∧ s' ≠ [] ∧ s'.length ≤ s.length + path.length ∧
      (z.tree permissions levels).Leads (.live (s ++ [z.gate])) path 0
        (.live (s' ++ [z.gate])) := by
  induction path generalizing s with
  | nil => exact ⟨s, hs, List.ne_nil_of_length_pos hlow, Nat.le_add_right _ _, .nil _ _⟩
  | cons c path ih =>
    rw [List.length_cons] at hlow hhigh ⊢
    obtain ⟨next, hnext, hdown, hup, hstep⟩ := leads_hall permissions levels hs (by omega)
      (by omega) fun n hn => hpath n (hn ▸ List.mem_cons_self)
    obtain ⟨s', hs', hne, hle, hleads⟩ := ih hnext (by omega) (by omega) fun n hn =>
      hpath n (List.mem_cons_of_mem c hn)
    have hboth := hstep.append hleads
    rw [List.singleton_append] at hboth
    exact ⟨s', hs', hne, by omega, hboth⟩

/-- How many names stand before the first component that goes up. -/
def levelsOf : List Component → Nat
  | .here :: rest => levelsOf rest
  | .nothing :: rest => levelsOf rest
  | .name _ :: rest => levelsOf rest + 1
  | _ => 0

theorem leads_heres {t : FileTree} {p : Place} {held : FileTree} (hs : t.Searches p held)
    (hup : .up ∈ path) (hlevels : levelsOf path = 0) :
    ∃ before after, path = before ++ .up :: after ∧ t.Leads p before 0 p := by
  induction path with
  | nil => simp at hup
  | cons c path ih =>
    cases c with
    | here =>
      obtain ⟨before, after, rfl, hleads⟩ := ih (by simpa using hup) hlevels
      exact ⟨.here :: before, after, rfl, (Leads.here hs).append hleads⟩
    | nothing =>
      obtain ⟨before, after, rfl, hleads⟩ := ih (by simpa using hup) hlevels
      obtain ⟨permissions, hheld, -⟩ := hs
      exact ⟨.nothing :: before, after, rfl, (Leads.nothing hheld).append hleads⟩
    | up => exact ⟨[], path, rfl, .nil t p⟩
    | name n => simp [levelsOf] at hlevels

/-- The names before the first component that goes up lead through as many levels of the crossings
to the dead end. -/
theorem leads_crossings {p : Place} {held : FileTree}
    (hs : (z.tree .all levels).Searches p held)
    (hheld : ∀ n ∈ z.names, held.lookup n = (z.crossings (levelsOf path)).lookup n)
    (hpath : ∀ n, .name n ∈ path → n ∈ z.names) (hup : .up ∈ path) (hlevels : levelsOf path ≠ 0) :
    ∃ before after, path = before ++ .up :: after ∧
      (z.tree .all levels).Leads p before 1 (.live (z.deadEnd :: z.start)) := by
  induction path generalizing p held with
  | nil => simp at hup
  | cons c path ih =>
    have hrest : ∀ n, .name n ∈ path → n ∈ z.names := fun n hn =>
      hpath n (List.mem_cons_of_mem c hn)
    cases c with
    | here =>
      obtain ⟨before, after, rfl, hleads⟩ := ih hs hheld hrest (by simpa using hup) hlevels
      exact ⟨.here :: before, after, rfl, (Leads.here hs).append hleads⟩
    | nothing =>
      obtain ⟨before, after, rfl, hleads⟩ := ih hs hheld hrest (by simpa using hup) hlevels
      obtain ⟨permissions, hp, -⟩ := hs
      exact ⟨.nothing :: before, after, rfl, (Leads.nothing hp).append hleads⟩
    | up => simp [levelsOf] at hlevels
    | name n =>
      have hn := hpath n List.mem_cons_self
      have hlookup := hheld n hn
      have hup' : .up ∈ path := by simpa using hup
      cases hl : levelsOf path with
      | zero =>
        rw [levelsOf, hl, crossings, lookup_spread_of_mem hn] at hlookup
        obtain ⟨before, after, rfl, hleads⟩ := leads_heres (z.searches_deadEnd .all levels) hup' hl
        exact ⟨.name n :: before, after, rfl,
          (Leads.link hs hlookup (leads_deadEnd p rfl)).append hleads⟩
      | succ deeper =>
        rw [levelsOf, hl, crossings, lookup_spread_of_mem hn] at hlookup
        obtain ⟨before, after, rfl, hleads⟩ := ih (hs.searches_name hlookup rfl)
          (fun _ _ => by rw [hl]) hrest hup' (by omega)
        exact ⟨.name n :: before, after, rfl,
          (Leads.name hs hlookup (by simp)).append hleads⟩

/-- Who never goes back in front of the gate comes to directories only. -/
theorem exists_directory_of_walk {p q : Place} {held : FileTree} {names : List Name} {links : Nat}
    {deep : Nat} (hs : (z.tree permissions levels).Searches p held)
    (hx : deep ≠ 0 → permissions.execute = true)
    (hheld : ∀ n ∈ names.head?, held.lookup n = (z.crossings deep).lookup n)
    (hw : (z.tree permissions levels).walk .following links p (names.map .name) = .ok (.found q)) :
    ∃ permissions', entryAt? (z.tree permissions levels) q = some (.directory permissions') := by
  induction names generalizing p held deep with
  | nil =>
    rw [List.map_nil, walk_nil] at hw
    obtain rfl := Spot.found.inj (Except.ok.inj hw)
    exact hs.entryAt?_eq
  | cons n names ih =>
    rw [List.map_cons] at hw
    have hlookup := hheld n rfl
    have missing (hnone : held.lookup n = none) :
        ∃ permissions',
          entryAt? (z.tree permissions levels) q = some (.directory permissions') := by
      rw [hs.walk_missing hnone (by decide)] at hw
      split at hw <;> simp at hw
    by_cases hn : n ∈ z.names
    · match deep with
      | 0 => exact missing hlookup
      | 1 =>
        rw [crossings, lookup_spread_of_mem hn] at hlookup
        rw [hs.walk_link hlookup (.inl rfl)] at hw
        cases links with
        | zero => simp [follow] at hw
        | succ links =>
          have hdead := z.searches_deadEnd permissions levels
          rw [follow, ← Nat.zero_add links,
            leads_deadEnd p (hx Nat.one_ne_zero) .following links _ (.inl rfl)] at hw
          obtain rfl := hdead.eq_of_walk_names (by decide) hw
          exact hdead.entryAt?_eq
      | deeper + 2 =>
        rw [crossings, lookup_spread_of_mem hn] at hlookup
        rw [hs.walk_name hlookup (by simp) (by decide)] at hw
        exact ih (hs.searches_name hlookup rfl) (fun _ => hx (by simp)) (fun _ _ => rfl) hw
    · refine missing (hlookup.trans ?_)
      match deep with
      | 0 => rfl
      | 1 => exact lookup_spread_of_not_mem hn _ _ _
      | deeper + 2 => exact lookup_spread_of_not_mem hn _ _ _

/-! ## The prize -/

variable {m : Machine} {directory answer : Text} {used : Nat}

theorem canRun_prize (hm : m.tree = z.tree permissions levels) (hnul : '\x00' ∉ directory)
    (hs : ∀ n ∈ s, n ∈ z.doors) (hne : s ≠ []) (hdepth : s.length < z.depth)
    (hleads : m.tree.Leads (m.origin (Path.join directory z.prize.text)) (Path.components directory)
      used (.live (s ++ [z.gate]))) (hused : used ≤ maxLinks) :
    m.canRun (Path.join directory z.prize.text) = true := by
  have hrel := Path.isAbsolute_of_no_slash z.prize.no_slash
  have hsearch := searches_halls permissions levels hs (Nat.le_of_lt hdepth)
    fun h => absurd h hne
  obtain ⟨k, hk⟩ : ∃ k, z.depth - s.length = k + 1 := ⟨z.depth - s.length - 1, by omega⟩
  rw [hk, ← hm] at hsearch
  have hstep : m.tree.Leads (.live (s ++ [z.gate])) [.name z.prize] 0
      (.live (z.prize :: (s ++ [z.gate]))) := .name hsearch lookup_halls_prize (by simp)
  refine Machine.canRun_iff.2 ⟨.live (z.prize :: (s ++ [z.gate])), .all, [], .idle, ?_,
    hsearch.entryAt?_name lookup_halls_prize, rfl⟩
  apply Machine.place_of_walk
  · exact Path.not_mem_join (by decide) hnul z.prize.no_nul
  · obtain ⟨front, hfront⟩ := Path.exists_join_eq (a := directory) hrel
    simp [hfront, z.prize.ne_nil]
  · obtain ⟨left, hleft⟩ := Nat.le.dest hused
    rw [Path.way_join_text, ← hleft, ← Nat.add_zero used]
    exact walk_of_le ((hleads.append hstep).walk left) (by omega)

theorem canRun_eq_false_of_names (hm : m.tree = z.tree permissions levels)
    (hx : levels ≠ 0 → permissions.execute = true) (habs : Path.isAbsolute answer = true)
    {names : List Name} (hnames : Path.components answer = names.map .name)
    (hgate : z.gate ∉ names) : m.canRun answer = false := by
  apply Bool.eq_false_iff.2
  intro hrun
  obtain ⟨q, permissions', text, program, hplace, hentry, -⟩ := Machine.canRun_iff.1 hrun
  obtain ⟨-, hway⟩ := Machine.walk_of_place hplace
  have hw := walk_components_of_way hway
  rw [Machine.origin, if_pos habs, hnames, hm] at hw
  obtain ⟨permissions'', hdirectory⟩ :=
    exists_directory_of_walk (z.searches_root permissions levels) hx (fun n hn =>
      lookup_tree_of_ne fun h => hgate (h ▸ List.mem_of_mem_head? hn)) hw
  simp [hm, hdirectory] at hentry

theorem canRun_eq_false_of_gate (hm : m.tree = z.tree permissions levels)
    (hx : permissions.execute = false) (habs : Path.isAbsolute answer = true) {n : Name}
    (hpath : Path.components answer = .name z.gate :: .name n :: path) :
    m.canRun answer = false := by
  apply Bool.eq_false_iff.2
  intro hrun
  obtain ⟨q, permissions', text, program, hplace, -, -⟩ := Machine.canRun_iff.1 hrun
  obtain ⟨-, hway⟩ := Machine.walk_of_place hplace
  have hw := walk_components_of_way hway
  have hlookup : (z.tree permissions levels).lookup z.gate =
      some (.directory permissions, z.halls z.depth) := by simp [tree, lookup]
  rw [Machine.origin, if_pos habs, hpath, hm,
    (z.searches_root permissions levels).walk_name hlookup (by simp) (by decide)] at hw
  obtain ⟨held, permissions'', hheld, hexecute⟩ := searches_of_walk hw (by simp)
  rw [held?_name rfl hlookup] at hheld
  obtain rfl : permissions = permissions'' := (Prod.mk.inj (Option.some.inj hheld)).1
  simp [hx] at hexecute

end Maze

end PocketShell
