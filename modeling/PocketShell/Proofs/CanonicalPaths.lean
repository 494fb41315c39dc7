import PocketShell.Machine.Canonical
import PocketShell.Proofs.OpenWays

/-!
# Canonical paths and walks

A walk puts the target of a link in front of what is left to walk. The canonical form of a path
resolves the target by itself, goes on from where that ends, and remembers it for the next time.
Both come to the same place. A link is entered while its target is being resolved only if it leads
back to itself, and then no walk comes through: of the links that are being resolved, none can be
passed with as few links as the innermost target takes.
-/

namespace PocketShell.Machine.Canonical

open FileTree

/-- A walk from the directory above comes through what is at the location. -/
def Passes (t : FileTree) (links : Nat) : Location → Prop
  | [] => True
  | n :: above => ∃ q, t.walk .following links (.live above) [.name n] = .ok (.found q)

/-- The links that are being resolved, each of them once. A walk that may follow only so many links
passes none of them. -/
structure Pending (t : FileTree) (links : Nat) (pending : List Location) : Prop where
  nodup : pending.Nodup
  found : ∀ l ∈ pending, t.find? l ≠ none
  not_passes : ∀ l ∈ pending, ¬ Passes t links l

/-- What is remembered of a link is where it leads to, and only a link that is being resolved has
nothing remembered. -/
structure Remembers (t : FileTree) (pending : List Location) (links : Links) : Prop where
  mem_pending : ∀ l, links.lookup l = some none → l ∈ pending
  leads : ∀ n above known, links.lookup (n :: above) = some (some known) →
    ∃ used, t.Leads (.live above) [.name n] used (.live known)

variable {t : FileTree} {m : Machine} {n : Name} {l known : Location} {q : Place}
variable {target : LinkTarget}
variable {budget fewer depth : Nat} {pending : List Location} {links : Links}

theorem Passes.of_le (h : Passes t fewer l) (hle : fewer ≤ budget) : Passes t budget l := by
  cases l with
  | nil => trivial
  | cons n above =>
    obtain ⟨q, hq⟩ := h
    exact ⟨q, walk_of_le hq hle⟩

/-- A walk along a name goes on below it, or along the target of the link that it stands for. -/
theorem walk_name_cases {path : List Component}
    (h : t.walk .following budget (.live l) (.name n :: path) = .ok (.found q)) :
    (∃ e, t.find? (n :: l) = some e ∧ (∀ target, e ≠ .link target) ∧
        t.walk .following budget (.live (n :: l)) path = .ok (.found q)) ∨
      ∃ target fewer, t.find? (n :: l) = some (.link target) ∧ budget = fewer + 1 ∧
        t.walk .following fewer (linkOrigin (.live l) target) (target.way ++ path) =
          .ok (.found q) := by
  cases walks_of_walk h with
  | enters searchable present no_link onward =>
    exact .inl ⟨_, present, no_link, onward.walk_eq⟩
  | follows searchable present onward => exact .inr ⟨_, _, present, rfl, onward.walk_eq⟩

theorem walk_components_of_target {p : Place}
    (h : t.walk .following budget p target.way = .ok (.found q)) :
    t.walk .following budget p (Path.components target.text) = .ok (.found q) := by
  unfold LinkTarget.way at h
  split at h
  · exact walk_of_append_nothing h
  · rwa [List.append_nil] at h

theorem exists_walk_target (hlink : t.find? (n :: l) = some (.link target))
    (h : t.walk .following budget (.live l) [.name n] = .ok (.found q)) :
    ∃ fewer, budget = fewer + 1 ∧
      t.walk .following fewer (linkOrigin (.live l) target) target.way = .ok (.found q) := by
  rcases walk_name_cases h with ⟨e, he, hno, -⟩ | ⟨other, fewer, hother, hbudget, hwalk⟩
  · rw [hlink] at he
    exact absurd (Option.some.inj he).symm (hno target)
  · rw [hlink, Option.some.injEq, Entry.link.injEq] at hother
    subst hother
    rw [List.append_nil] at hwalk
    exact ⟨fewer, hbudget, hwalk⟩

/-- A link that can be passed has a number of links that its target takes and that the link itself
exceeds. -/
theorem exists_fewest (hlink : t.find? (n :: l) = some (.link target))
    (h : t.walk .following budget (.live l) [.name n] = .ok (.found q)) :
    ∃ fewer < budget, ¬ Passes t fewer (n :: l) ∧
      t.walk .following fewer (linkOrigin (.live l) target) target.way = .ok (.found q) := by
  induction budget with
  | zero =>
    obtain ⟨fewer, hfewer, -⟩ := exists_walk_target hlink h
    simp at hfewer
  | succ budget ih =>
    by_cases hpasses : Passes t budget (n :: l)
    · obtain ⟨r, hr⟩ := hpasses
      obtain rfl : q = r := by
        rw [walk_of_le hr (Nat.le_succ budget)] at h
        exact (Spot.found.inj (Except.ok.inj h)).symm
      obtain ⟨fewer, hlt, hfewest⟩ := ih hr
      exact ⟨fewer, Nat.lt_succ_of_lt hlt, hfewest⟩
    · obtain ⟨fewer, hbudget, hwalk⟩ := exists_walk_target hlink h
      obtain rfl := Nat.succ.inj hbudget
      exact ⟨budget, Nat.lt_succ_self budget, hpasses, hwalk⟩

theorem pending_nil (t : FileTree) (budget : Nat) : Pending t budget [] := by
  constructor <;> simp

/-- The target of a pending link is resolved with no more links than do not suffice to pass it. -/
theorem Pending.cons (h : Pending t budget pending) (hle : fewer ≤ budget)
    (hfound : t.find? (n :: l) ≠ none) (hpasses : Passes t budget (n :: l))
    (hnot : ¬ Passes t fewer (n :: l)) : Pending t fewer ((n :: l) :: pending) where
  nodup := by
    refine List.nodup_cons.2 ⟨fun hmem => ?_, h.nodup⟩
    exact h.not_passes _ hmem hpasses
  found := List.forall_mem_cons.2 ⟨hfound, h.found⟩
  not_passes := by
    refine List.forall_mem_cons.2 ⟨hnot, fun k hk hfewer => ?_⟩
    exact h.not_passes k hk (hfewer.of_le hle)

theorem Pending.length_le (h : Pending t budget pending) : pending.length ≤ t.size := by
  refine length_le_size h.nodup fun l hl => ⟨?_, h.found l hl⟩
  rintro rfl
  exact h.not_passes [] hl trivial

theorem remembers_nil (t : FileTree) : Remembers t [] [] := by
  constructor <;> simp

theorem Remembers.begin (h : Remembers t pending links) :
    Remembers t ((n :: l) :: pending) ((n :: l, none) :: links) where
  mem_pending := by
    intro k hk
    rw [List.lookup_cons] at hk
    split at hk
    · next heq => exact List.mem_cons.2 (.inl (beq_iff_eq.1 heq))
    · exact List.mem_cons_of_mem _ (h.mem_pending k hk)
  leads := by
    intro a above known hk
    rw [List.lookup_cons] at hk
    split at hk
    · simp at hk
    · exact h.leads a above known hk

theorem Remembers.finish {used : Nat} (h : Remembers t ((n :: l) :: pending) links)
    (hleads : t.Leads (.live l) [.name n] used (.live known)) :
    Remembers t pending ((n :: l, some known) :: links) where
  mem_pending := by
    intro k hk
    rw [List.lookup_cons] at hk
    split at hk
    · simp at hk
    · next hne =>
      rcases List.mem_cons.1 (h.mem_pending k hk) with rfl | hmem
      · simp at hne
      · exact hmem
  leads := by
    intro a above other hk
    rw [List.lookup_cons] at hk
    split at hk
    · next heq =>
      obtain ⟨rfl, rfl⟩ := List.cons.inj (beq_iff_eq.1 heq)
      obtain rfl : known = other := by simpa using hk
      exact ⟨used, hleads⟩
    · exact h.leads a above other hk

theorem linkTarget?_of_link (hopen : m.tree.OpenAbove (n :: l))
    (hn : m.tree.find? (n :: l) = some (.link target)) :
    linkTarget? m (n :: l) = some target := by
  simp [linkTarget?, lstat_ofLocation hopen hn]

theorem linkTarget?_of_not_link {e : Entry} (hopen : m.tree.OpenAbove (n :: l))
    (hn : m.tree.find? (n :: l) = some e) (he : ∀ target, e ≠ .link target) :
    linkTarget? m (n :: l) = none := by
  rw [linkTarget?, lstat_ofLocation hopen hn]
  cases e with
  | directory permissions => rfl
  | file permissions text program => rfl
  | link target => exact absurd rfl (he target)

theorem linkOrigin_live (l : Location) (target : LinkTarget) :
    linkOrigin (.live l) target = .live (if Path.isAbsolute target.text then [] else l) := by
  unfold linkOrigin
  split <;> rfl

/-- Of the paths that are walked with so many links, each resolves to where the walk comes to,
whatever is pending and whatever is remembered. -/
def Agrees (m : Machine) (budget : Nat) : Prop :=
  ∀ {depth : Nat} {l : Location} {fields : List Text} {q : Place} {pending : List Location}
    {links : Links}, (∀ field ∈ fields, '\x00' ∉ field) →
    m.tree.walk .following budget (.live l) (fields.filterMap Component.ofText?) = .ok (.found q) →
    m.tree.OpenAbove l → Pending m.tree budget pending → Remembers m.tree pending links →
    pending.length + depth = m.tree.size + 1 →
    ∃ after, resolve m depth l fields links = .ok (.resolved q.location, after) ∧
      Remembers m.tree pending after

/-- A link is resolved to where it leads, and the rest of the path from there. -/
theorem exists_resolveWith_link {field : Text} {used : Nat} {k : Location}
    (hfewer : ∀ fewer < budget, Agrees m fewer) (hfield : '\x00' ∉ field)
    (hc : Component.ofText? field = some (.name n))
    (hn : m.tree.find? (n :: l) = some (.link target)) (hopen : m.tree.OpenAbove (n :: l))
    (hleads : m.tree.Leads (.live l) [.name n] used (.live k)) (hused : used ≤ budget)
    (hpending : Pending m.tree budget pending) (hlinks : Remembers m.tree pending links)
    (hdepth : pending.length + depth = m.tree.size) :
    ∃ after, Remembers m.tree pending after ∧ ∀ rest,
      resolveWith (resolve m depth) m l (field :: rest) links =
        resolveWith (resolve m depth) m k rest after := by
  have hpass : m.tree.walk .following budget (.live l) [.name n] = .ok (.found (.live k)) :=
    walk_of_le (hleads.walk 0) hused
  have hseen := linkTarget?_of_link hopen hn
  cases hlookup : links.lookup (n :: l) with
  | none =>
    obtain ⟨fewer, hlt, hnot, htarget⟩ := exists_fewest hn hpass
    have horigin := openAbove_linkOrigin (p := .live l) (openAbove_cons_iff.1 hopen).2 target
    rw [linkOrigin_live] at htarget horigin
    have hpending' := hpending.cons (Nat.le_of_lt hlt) (by simp [hn]) ⟨_, hpass⟩ hnot
    have hdepth' : ((n :: l) :: pending).length + depth = m.tree.size + 1 := by
      rw [List.length_cons]
      omega
    obtain ⟨after, hafter, hremembers⟩ :=
      hfewer fewer hlt (Text.not_mem_field target.no_nul) (walk_components_of_target htarget)
        horigin hpending' hlinks.begin hdepth'
    refine ⟨(n :: l, some k) :: after, hremembers.finish hleads, fun rest => ?_⟩
    simp only [resolveWith, if_neg hfield, hc, hseen, hlookup, hafter, Place.live]
  | some answer =>
    cases answer with
    | none =>
      have hmem := hlinks.mem_pending (n :: l) hlookup
      exact absurd ⟨_, hpass⟩ (hpending.not_passes (n :: l) hmem)
    | some known =>
      obtain ⟨used', hknown⟩ := hlinks.leads n l known hlookup
      obtain rfl : known = k := congrArg Place.location (hknown.unique hleads)
      refine ⟨links, hlinks, fun rest => ?_⟩
      simp only [resolveWith, if_neg hfield, hc, hseen, hlookup]

/-- Where a walk comes to, the same path resolves to. -/
theorem agrees (m : Machine) (budget : Nat) : Agrees m budget := by
  -- On the links first: the target of a link is resolved with fewer, by itself.
  induction budget using Nat.strongRecOn with
  | ind budget hfewer =>
    intro depth l fields q pending links hfields hw hopen hpending hlinks hdepth
    have hlength := hpending.length_le
    obtain ⟨depth, rfl⟩ : ∃ within, depth = within + 1 := ⟨depth - 1, by omega⟩
    simp only [resolve]
    induction fields generalizing l links with
    | nil =>
      rw [List.filterMap_nil, walk_nil] at hw
      obtain rfl := Spot.found.inj (Except.ok.inj hw)
      exact ⟨links, rfl, hlinks⟩
    | cons field rest ih =>
      obtain ⟨hfield, hrest⟩ := List.forall_mem_cons.1 hfields
      cases hc : Component.ofText? field with
      | none =>
        rw [List.filterMap_cons_none hc] at hw
        simp only [resolveWith, if_neg hfield, hc]
        exact ih hrest hw hopen hlinks
      | some c =>
        rw [List.filterMap_cons_some hc] at hw
        cases c with
        | nothing =>
          obtain ⟨directory, hl⟩ := held?_of_walk_nothing hw
          rw [walk_nothing hl] at hw
          simp only [resolveWith, if_neg hfield, hc]
          exact ih hrest hw hopen hlinks
        | here =>
          obtain ⟨held, hs⟩ := searches_of_walk hw (by simp)
          rw [hs.walk_here] at hw
          simp only [resolveWith, if_neg hfield, hc]
          exact ih hrest hw hopen hlinks
        | up =>
          obtain ⟨held, hs⟩ := searches_of_walk hw (by simp)
          rw [hs.walk_up] at hw
          simp only [resolveWith, if_neg hfield, hc]
          exact ih hrest hw hopen.tail hlinks
        | name n =>
          obtain ⟨held, hs⟩ := searches_of_walk hw (by simp)
          have hopen' : m.tree.OpenAbove (n :: l) :=
            openAbove_cons_iff.2 ⟨searchError?_eq_none_iff.2 ⟨held, hs⟩, hopen⟩
          rcases walk_name_cases hw with ⟨e, hn, hno, hbelow⟩ | ⟨target, fewer, hn, -, -⟩
          · simp only [resolveWith, if_neg hfield, hc, linkTarget?_of_not_link hopen' hn hno]
            exact ih hrest hbelow hopen' hlinks
          · obtain ⟨used, left, r, hbudget, hleads, hleft, hlive⟩ :=
              exists_leads (a := [.name n]) hw
            obtain ⟨hremoved, hopenr⟩ := (walks_of_walk (hleads.walk 0)).openAbove rfl hopen
            obtain ⟨k, rfl⟩ : ∃ k, r = .live k := ⟨_, (Place.live_location hremoved).symm⟩
            have hused : used ≤ budget := by omega
            have hdepth' : pending.length + depth = m.tree.size := by omega
            obtain ⟨after, hremembers, hresolve⟩ := exists_resolveWith_link hfewer hfield hc hn
              hopen' hleads hused hpending hlinks hdepth'
            rw [hresolve rest]
            exact ih hrest (walk_of_le hleft (by omega)) hopenr hremembers

end PocketShell.Machine.Canonical
