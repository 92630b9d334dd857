import ArrowheadCore.ServiceRegistry.Presentable

/-!
# What the grouped listing shows

The listing stops at the first service definition and at the first system without an entry, and a list without items
loses its opening bracket. So it is a JSON text with every entry under its definition and under its system only if
there are systems, each of them and each definition has an entry, and the entries can be shown; and if so, it is one as
long as the texts of the tables need no escape (`grouped_iff`).
-/

namespace ArrowheadCore.ServiceRegistry
open Lib Lib.Sql Json Db
open JsonView hiding parse
open Grammar hiding IsName

/-! ## What a listing should be -/

/-- The value of a member. -/
def nodeAt (name : String) : JsonNode → Option JsonNode
  | .object ms => findKey ms (bytes name)
  | _ => none

/-- The items of a member. -/
def itemsAt (name : String) (v : JsonNode) : List JsonNode :=
  match nodeAt name v with
  | some (.array vs) => vs
  | _ => []

/-- The keys of a list of objects. -/
def shownKeys (name : String) (v : JsonNode) : List (Option JsonNode) := (itemsAt name v).map (nodeAt "id")

/-- The entries that a list of groups shows, each with the key of its group. -/
def placed (groups key list : String) (v : JsonNode) : List (Option JsonNode × Option JsonNode) :=
  (itemsAt groups v).flatMap fun g => (shownKeys list g).map fun id => (nodeAt key g, id)

/-- The value of a key column. -/
def keyNode : Value → Option JsonNode
  | .int z => some (numberNode z)
  | _ => none

def idNode (r : Row) : Option JsonNode := some (numberNode r.id)

/-- The tree shows every entry once under its definition and once under its system, and has no other place for one. -/
structure WellGrouped (db : Database) (tree : JsonNode) : Prop where
  names : ∃ a d s, tree = .object [(bytes "autoCompleteData", a), (bytes "servicesGroupedByServiceDefinition", d),
    (bytes "servicesGroupedBySystems", s)]
  byDefinition : (placed "servicesGroupedByServiceDefinition" "serviceDefinitionId" "providerServices" tree).Perm
    ((db "service_registry").rows.map fun r => (keyNode (r.get "service_id"), idNode r))
  bySystem : (placed "servicesGroupedBySystems" "systemId" "services" tree).Perm
    ((db "service_registry").rows.map fun r => (keyNode (r.get "system_id"), idNode r))
  completion : ∃ i d s, nodeAt "autoCompleteData" tree = some (.object [(bytes "interfaceList", .array i),
      (bytes "serviceList", .array d), (bytes "systemList", .array s)]) ∧
    i.map (nodeAt "id") = (db "service_interface").rows.map idNode ∧
    d.map (nodeAt "id") = (db "service_definition").rows.map idNode ∧
    s.map (nodeAt "id") = (db "system_").rows.map idNode

/-- The request is answered with a JSON text that lists the entries in groups. -/
def ListsGrouped (link : Link) (db : Database) : Prop :=
  ∃ text s' n tree, processMgmtGetGrouped.run link ⟨db, none, 0⟩ = (.ok (.ok text), s') ∧ Document rfc n text tree ∧
    WellGrouped db tree

/-! ## Computations that succeed under a condition -/

/-- The computation leaves the tables alone. It has a result of the form `g b` exactly under the condition, and then
    such a one. -/
structure Yields {α β : Type} (db : Database) (g : β → α) (m : DbM α) (c : Prop) (p : β → Prop) : Prop where
  gives : c → ∃ b, Gives db m (g b) ∧ p b
  needs : ∀ s, s.db = db → ∀ b s', m s = (.ok (g b), s') → c

namespace Yields
variable {α β γ δ ε : Type} {db : Database} {g : β → α} {k : δ → γ} {m : DbM α} {f : α → DbM γ} {c d : Prop}
  {p r : β → Prop} {q : δ → Prop}

lemma pure (g : β → α) (b : β) (h : p b) : Yields db g (pure (g b)) True p :=
  ⟨fun _ => ⟨b, Gives.pure db _, h⟩, fun _ _ _ _ _ => trivial⟩

lemma throw (e : Exn) : Yields db g (throwExn e) False p := by
  refine ⟨False.elim, fun s _ b s' run => ?_⟩
  cases run

lemma error (e : ε) : Yields db Except.ok (Pure.pure (.error e)) False p := by
  refine ⟨False.elim, fun s _ b s' run => ?_⟩
  cases run

lemma congr (h : Yields db g m c p) (hc : c ↔ d) (hp : ∀ b, p b → r b) : Yields db g m d r := by
  refine ⟨fun hd => ?_, fun s hs b s' run => hc.1 (h.needs s hs b s' run)⟩
  obtain ⟨b, hb, p⟩ := h.gives (hc.2 hd)
  exact ⟨b, hb, hp b p⟩

lemma and_cond (h : Yields db g m c p) : Yields db g m c fun b => p b ∧ c := by
  refine ⟨fun hc => ?_, h.needs⟩
  obtain ⟨b, hb, hp⟩ := h.gives hc
  exact ⟨b, hb, hp, hc⟩

lemma of_gives {a : α} (hm : Gives db m a) (hf : Yields db k (f a) d q) : Yields db k (m >>= f) d q := by
  refine ⟨fun hd => ?_, fun s hs x s' run => ?_⟩
  · obtain ⟨x, hx, hq⟩ := hf.gives hd
    exact ⟨x, hm.bind hx, hq⟩
  · obtain ⟨n, e⟩ := hm s hs
    rw [bind_of_ok e] at run
    exact hf.needs { s with sent := n } hs x s' run

/-- One computation after the other. A result of another form ends them. -/
lemma bind (hm : Yields db g m c p) (hf : ∀ b, p b → Yields db k (f (g b)) d q)
    (stop : ∀ a, (∀ b, a ≠ g b) → ∀ s x s', f a s ≠ (.ok (k x), s')) : Yields db k (m >>= f) (c ∧ d) q := by
  refine ⟨fun ⟨hc, hd⟩ => ?_, fun s hs x s' run => ?_⟩
  · obtain ⟨b, hb, hp⟩ := hm.gives hc
    obtain ⟨x, hx, hq⟩ := (hf b hp).gives hd
    exact ⟨x, hb.bind hx, hq⟩
  · obtain ⟨a, s1, h1, h2⟩ := bind_eq_ok run
    by_cases ha : ∃ b, a = g b
    · obtain ⟨b, rfl⟩ := ha
      have hc := hm.needs s hs b s1 h1
      obtain ⟨b', hb', hp⟩ := hm.gives hc
      obtain ⟨n, e⟩ := hb' s hs
      obtain ⟨same, rfl⟩ := Prod.mk.inj (h1.symm.trans e)
      rw [Except.ok.inj same] at h2
      exact ⟨hc, (hf b' hp).needs { s with sent := n } hs x s' h2⟩
    · push Not at ha
      exact absurd h2 (stop a ha s1 x s')

/-- An error is handed on. -/
lemma andThen {m : DbM (Except ε β)} {f : Except ε β → DbM (Except ε δ)} (hm : Yields db Except.ok m c p)
    (hf : ∀ b, p b → Yields db Except.ok (f (.ok b)) d q) (he : ∀ e, f (.error e) = Pure.pure (.error e)) :
    Yields db Except.ok (m >>= f) (c ∧ d) q := by
  refine hm.bind hf fun a ha s x s' run => ?_
  cases a with
  | error e =>
    rw [he] at run
    cases run
  | ok b => exact ha b rfl

end Yields

section
variable {db : Database}

/-- A foreign key refers to a row. -/
lemma Consistent.refers (h : Consistent db) {t c u : String} (hc : (t, c, u) ∈ foreignKeys) {r : Row}
    (hr : r ∈ (db t).rows) : ∃ x ∈ (db u).rows, r.get c = .int x.id := h.keys _ hc r hr

/-! ## The statements -/

/-- All rows of a table, with some of its columns. -/
lemma columns_gives {link : Link} (hlink : ∀ n, link.fault n = .none) {statement : List UInt8} {t : String}
    {columns : List String} (hp : parse statement =
      some (.select ⟨some (columns.map (.col none)), ⟨t, t⟩, [], none, []⟩)) (ht : (schema t).isSome)
    (hc : ∀ c ∈ columns, hasColumn schema t c) :
    Gives db (fetch link statement) ((db t).rows.map fun r => columns.map r.get) := by
  refine select_gives link hlink hp ?_
  have bound : Select.bound schema ⟨some (columns.map (.col none)), ⟨t, t⟩, [], none, []⟩ := by
    have all : (columns.map (Expr.col none)).all (Expr.bound schema [⟨t, t⟩]) := by
      rw [List.all_map, List.all_eq_true]
      intro c h
      simp [Expr.bound, hc c h]
    simp [Select.bound, Select.sources, ht, all]
  have sorted : ∀ l : List Env, l.insertionSort (fun a b => keysLe schema [] a b) = l := fun l =>
    List.Pairwise.insertionSort_eq (List.pairwise_of_forall fun _ _ => rfl)
  have whole : ∀ l : List Env, l.filter (fun _ => true) = l := fun l => List.filter_eq_self.2 fun _ _ => rfl
  rw [Select.run, if_pos bound]
  simp only [Option.all_none, sorted, whole, Select.combine, List.foldl_nil, List.map_map]
  refine congrArg some (List.map_congr_left fun r _ => ?_)
  show (columns.map (Expr.col none)).map (Expr.eval schema [(⟨t, t⟩, r)]) = columns.map r.get
  rw [List.map_map]
  exact List.map_congr_left fun c h => Expr.eval_column (hc c h) r

lemma parse_groupStatement {sColumn v : List UInt8} {c : String} (hc : IsName sColumn c) (hv : Plain v) :
    parse (bytes "SELECT id FROM service_registry WHERE " ++ (sColumn ++ (bytes " = '" ++ (v ++ bytes "'")))) =
      some (.select ⟨some [.col none "id"], ⟨"service_registry", "service_registry"⟩, [],
        some (.eq (.col none c) (.lit (.text v))), []⟩) := by
  have l1 : Lexes .idle (bytes "SELECT id FROM service_registry WHERE ") [.kw .select, .ident "id", .kw .from,
      .ident "service_registry", .kw .where] .idle := lexes_bytes (by decide)
  have l2 : Lexes .idle (bytes " = '") [.sym .eq] (.text []) := lexes_bytes (by decide)
  have inside : Lexes (.text []) v [] (.text ([] ++ v)) := ⟨fun h0 => (hv 0 h0).1 rfl, lexRun_plain hv []⟩
  have close : Lexes (.text ([] ++ v)) (bytes "'") [] (.quote v) := ⟨by decide +kernel, rfl⟩
  have all := l1.append ((l2.append (inside.append close)).name (delimits_cons _ (by decide)) hc)
  rw [parse, lex_of_lexes all rfl]
  rfl

/-- The entries of a group. -/
def groupRows (db : Database) (c : String) (n : Nat) : List Row :=
  (db "service_registry").rows.filter fun r => r.get c = .int n

/-- A row as the loop over entries or systems reads it. -/
def keyRow (r : Row) : List Value := [.int r.id]

/-- The columns that entries are grouped by. -/
def GroupColumn (c : String) : Prop := c = "service_id" ∨ c = "system_id"

lemma group_gives {link : Link} (hlink : ∀ n, link.fault n = .none) (typed : Typed db) {sColumn : List UInt8}
    {c : String} (hc : IsName sColumn c) (column : GroupColumn c) (n : Nat) :
    Gives db (fetch link (bytes "SELECT id FROM service_registry WHERE " ++ (sColumn ++ (bytes " = '" ++
      (to_string n ++ bytes "'"))))) ((groupRows db c n).map keyRow) := by
  have known : hasColumn schema "service_registry" c ∧ ∃ u, ("service_registry", c, u) ∈ foreignKeys := by
    obtain rfl | rfl := column
    · exact ⟨by decide, _, .head _⟩
    · exact ⟨by decide, _, .tail _ (.head _)⟩
  obtain ⟨known, u, hu⟩ := known
  refine select_gives link hlink (parse_groupStatement hc (plain_to_string n)) ?_
  rw [select_id_run known]
  refine congrArg (fun rows : List Row => some (rows.map keyRow)) (List.filter_congr fun r hr => ?_)
  obtain ⟨k, -, hk⟩ := typed.key hu hr
  rw [Bool.eq_iff_iff, decide_eq_true_iff, hk, same_key]
  simp

/-! ## The loops -/

/-- The second text continues the first with the texts of the items and a comma behind each. -/
def Appends {ι : Type} (db : Database) (R : List UInt8 → ι → Prop) (resp : List UInt8) (items : List ι)
    (resp' : List UInt8) : Prop :=
  ∃ texts, resp' = resp ++ texts.flatMap (· ++ bytes ",") ∧ texts.length = items.length ∧
    (Quotable db → List.Forall₂ R texts items)

section
variable {ι : Type} {R : List UInt8 → ι → Prop} {resp resp' : List UInt8} {items : List ι}

lemma Appends.nil : Appends db R resp [] resp := ⟨[], by simp, rfl, fun _ => .nil⟩

lemma Appends.cons {s : List UInt8} {x : ι} (hs : Quotable db → R s x)
    (h : Appends db R (resp ++ (s ++ bytes ",")) items resp') : Appends db R resp (x :: items) resp' := by
  obtain ⟨texts, rfl, length, all⟩ := h
  exact ⟨s :: texts, by simp, by simp [length], fun quotable => .cons (hs quotable) (all quotable)⟩

omit db in
lemma setBack_concat (c d : UInt8) (s : List UInt8) : setBack c (s ++ [d]) = s ++ [c] := by
  rw [setBack, List.dropLast_concat]

/-- The last comma becomes the bracket. -/
lemma Appends.close (h : Appends db R resp items resp') (hne : items ≠ []) :
    ∃ texts, setBack ']'.toUInt8 resp' = resp ++ (commaList texts ++ bytes "]") ∧ texts ≠ [] ∧
      (Quotable db → List.Forall₂ R texts items) := by
  obtain ⟨texts, rfl, length, all⟩ := h
  have some_ : texts ≠ [] := by
    rintro rfl
    exact hne (List.eq_nil_of_length_eq_zero length.symm)
  have comma : bytes "," = [','.toUInt8] ∧ bytes "]" = [']'.toUInt8] := by decide
  refine ⟨texts, ?_, some_, all⟩
  rw [flatMap_comma some_, comma.1, comma.2, ← List.append_assoc, setBack_concat, List.append_assoc]

/-- Without items there is nothing new. -/
lemma Appends.eq_of_nil (h : Appends db R resp [] resp') : resp' = resp := by
  obtain ⟨texts, rfl, length, -⟩ := h
  rw [List.eq_nil_of_length_eq_zero length, List.flatMap_nil, List.append_nil]

end

section
variable {link : Link} (hlink : ∀ n, link.fault n = .none)
include hlink

lemma appendSystems_yields (typed : Typed db) : ∀ {rows : List Row}, (∀ p ∈ rows, p ∈ (db "system_").rows) →
    ∀ resp, Yields db id ((appendSystems (rows.map keyRow) resp).run link) (∀ p ∈ rows, SystemFits p)
      (Appends db ShowsKey resp rows)
  | [], _, resp => (Yields.pure id resp Appends.nil).congr (by simp) fun _ h => h
  | p :: rows, stored, resp => by
    have hp := stored p (by simp)
    have read : Gives db ((processSystem (cell (keyRow p) 0)).run link) (some (systemData p)) :=
      processSystem_gives hlink hp
    rw [List.map_cons]
    unfold appendSystems
    simp only [Program.run_bind]
    refine Yields.of_gives read ?_
    simp only [Option.getD_some]
    cases e : createSRSystem (systemData p) with
    | error x =>
      refine (Yields.throw x).congr (iff_of_false id fun all => ?_) fun _ h => h
      obtain ⟨port, ok⟩ := createSRSystem_ok (all p (by simp))
      rw [e] at ok
      cases ok
    | ok text =>
      have fits := createSRSystem_needs (typed.ports p hp) e
      have shown : Quotable db → ShowsKey text p := by
        intro quotable
        obtain ⟨port, ok⟩ := createSRSystem_ok fits
        rw [e] at ok
        cases ok
        exact showsKey_keyedText (quotable.system hp port)
      refine (appendSystems_yields typed (fun x hx => stored x (by simp [hx])) _).congr ?_ fun _ h => h.cons shown
      simp [fits]

/-- The entry can be shown with what it refers to. -/
def EntryShown (db : Database) (r : Row) : Prop := EntryFits db r ∧ PartsFit db r

lemma appendEntries_yields (cons : Consistent db)
    (versions : ∀ r ∈ (db "service_registry").rows, IntColumn r "version") :
    ∀ {rows : List Row}, (∀ r ∈ rows, r ∈ (db "service_registry").rows) →
    ∀ resp, Yields db Except.ok ((appendEntries (rows.map keyRow) resp).run link) (∀ r ∈ rows, EntryShown db r)
      (Appends db ShowsKey resp rows)
  | [], _, resp => (Yields.pure Except.ok resp Appends.nil).congr (by simp) fun _ h => h
  | r :: rows, stored, resp => by
    have hr := stored r (by simp)
    have number : stoi (cell (keyRow r) 0) = if r.id < 2 ^ 31 then some (r.id : Int) else none := stoi_to_string r.id
    rw [List.map_cons]
    unfold appendEntries
    by_cases key : r.id < 2 ^ 31
    · simp only [number, if_pos key, Program.run_bind]
      obtain ⟨result, read, ok, data⟩ := processServiceRegistryEntry_gives hlink cons.typed hr
      refine Yields.of_gives read ?_
      cases result with
      | error n =>
        refine (Yields.error _).congr (iff_of_false id fun all => ?_) fun _ h => h
        have fits := (all r (by simp)).1
        have definition := cons.refers (.head _) hr
        have system := cons.refers (.tail _ (.head _)) hr
        have interfaces := fun c hc => cons.refers (.tail _ (.tail _ (.tail _ (.head _)))) (r := c) hc
        obtain ⟨q, hq⟩ := ok.2 ⟨definition, system, fits.connected, fun c hc _ => interfaces c hc⟩
        cases hq
      | ok q =>
        obtain ⟨-, complete⟩ := ok.1 ⟨q, rfl⟩
        obtain ⟨d, p, intfs, parts, rfl⟩ := data q rfl
        cases e : createRegistryEntry (entryData r d p intfs) with
        | error x =>
          simp only [e]
          refine (Yields.throw x).congr (iff_of_false id fun all => ?_) fun _ h => h
          obtain ⟨fits, partsFit⟩ := all r (by simp)
          obtain ⟨text, ok, -⟩ := createRegistryEntry_ok parts (versions r hr) fits partsFit
          rw [e] at ok
          cases ok
        | ok text =>
          simp only [e]
          obtain ⟨version, interfaces, partsFit⟩ := createRegistryEntry_needs cons.typed parts e
          have fits : EntryFits db r := ⟨key, version, complete.connections, interfaces⟩
          have shown : Quotable db → ShowsKey text r := by
            intro quotable
            obtain ⟨text', ok, shown⟩ := createRegistryEntry_ok parts (versions r hr) fits partsFit
            rw [e] at ok
            cases ok
            exact shown quotable hr
          have rest := appendEntries_yields cons versions fun x (hx : x ∈ rows) => stored x (by simp [hx])
          refine (rest _).congr ?_ fun _ h => h.cons shown
          simp [EntryShown, fits, partsFit]
    · simp only [number, if_neg key]
      refine (Yields.throw _).congr (iff_of_false id fun all => key (all r (by simp)).1.key) fun _ h => h

/-! ### Groups -/

omit hlink in
lemma denotes_shownKeys {texts : List (List UInt8)} {rows : List Row} (h : List.Forall₂ ShowsKey texts rows) :
    ∃ vs, List.Forall₂ Denotes texts vs ∧ vs.map (nodeAt "id") = rows.map idNode := by
  induction h with
  | nil => exact ⟨[], .nil, rfl⟩
  | cons hs _ ih =>
    obtain ⟨ms, denotes⟩ := hs
    obtain ⟨vs, hvs, keys⟩ := ih
    refine ⟨_ :: vs, .cons denotes hvs, ?_⟩
    rw [List.map_cons, keys]
    rfl

/-- The text before the entries of a group: with the entries and the brackets behind it, it is an object with the key
    of the group and the list of the entries. -/
def IsHead (key list : String) (x : Row) (head : List UInt8) : Prop :=
  ∀ texts vs, List.Forall₂ Denotes texts vs → ∃ g, Denotes (head ++ (commaList texts ++ bytes "]\x7d")) g ∧
    nodeAt key g = idNode x ∧ itemsAt list g = vs

/-- The text is that of the group. -/
def ShowsGroup (db : Database) (c key list : String) (s : List UInt8) (x : Row) : Prop :=
  ∃ g, Denotes s g ∧ nodeAt key g = idNode x ∧ shownKeys list g = (groupRows db c x.id).map idNode

/-- The group has entries, and they can be shown. -/
def GroupFits (db : Database) (c : String) (x : Row) : Prop :=
  groupRows db c x.id ≠ [] ∧ ∀ r ∈ groupRows db c x.id, EntryShown db r

variable {c : String} {sColumn : List UInt8}

lemma appendGroup_yields (cons : Consistent db) (versions : ∀ r ∈ (db "service_registry").rows, IntColumn r "version")
    (hc : IsName sColumn c) (column : GroupColumn c) {key list : String} {x : Row} {head : List UInt8}
    (hhead : Quotable db → IsHead key list x head) (resp : List UInt8) :
    Yields db Except.ok ((appendGroup sColumn (to_string x.id) head resp).run link) (GroupFits db c x)
      (fun resp' => ∃ s, resp' = resp ++ (s ++ bytes ",") ∧ (Quotable db → ShowsGroup db c key list s x)) := by
  have read := group_gives hlink cons.typed hc column x.id
  have stored : ∀ r ∈ groupRows db c x.id, r ∈ (db "service_registry").rows := fun r hr => List.mem_of_mem_filter hr
  unfold appendGroup
  simp only [Program.run_bind, Program.run_fetch]
  refine Yields.of_gives read ?_
  cases e : groupRows db c x.id with
  | nil => exact (Yields.error _).congr (iff_of_false id fun h => h.1 e) fun _ h => h
  | cons r rows =>
    rw [e] at stored
    have entries := appendEntries_yields hlink cons versions stored (resp ++ head)
    rw [List.map_cons] at entries ⊢
    simp only [Program.run_bind]
    refine Yields.congr (entries.andThen (d := True) (fun resp' appended => ?_) fun _ => rfl) ?_ fun _ h => h
    · obtain ⟨texts, closed, -, shown⟩ := appended.close (by simp)
      have brackets : bytes "\x7d," = bytes "\x7d" ++ bytes "," ∧ bytes "]\x7d" = bytes "]" ++ bytes "\x7d" := by decide
      refine Yields.pure Except.ok _ ⟨head ++ (commaList texts ++ bytes "]\x7d"), ?_, fun quotable => ?_⟩
      · rw [closed, brackets.1, brackets.2]
        simp only [List.append_assoc]
      · obtain ⟨vs, denotes, keys⟩ := denotes_shownKeys (shown quotable)
        obtain ⟨g, hg, hkey, hlist⟩ := hhead quotable texts vs denotes
        exact ⟨g, hg, hkey, by rw [shownKeys, hlist, keys, e]⟩
    · simp only [and_true, GroupFits, e]
      simp

/-- The groups are shown if each has entries and they can be shown. -/
lemma appendGroups_yields (cons : Consistent db) (versions : ∀ r ∈ (db "service_registry").rows, IntColumn r "version")
    (hc : IsName sColumn c) (column : GroupColumn c) {key list : String} {head : List Value → List UInt8}
    (view : Row → List Value) (hview : ∀ x, cell (view x) 0 = to_string x.id) :
    ∀ {rows : List Row}, (∀ x ∈ rows, Quotable db → IsHead key list x (head (view x))) → ∀ resp,
      Yields db Except.ok ((appendGroups sColumn head (rows.map view) resp).run link) (∀ x ∈ rows, GroupFits db c x)
        (Appends db (ShowsGroup db c key list) resp rows)
  | [], _, resp => (Yields.pure Except.ok resp Appends.nil).congr (by simp) fun _ h => h
  | x :: rows, hheads, resp => by
    have group := appendGroup_yields hlink cons versions hc column (hheads x (by simp)) resp
    rw [List.map_cons]
    unfold appendGroups
    simp only [Program.run_bind, hview]
    refine Yields.congr (group.andThen (d := ∀ y ∈ rows, GroupFits db c y) (fun resp' appended => ?_) fun _ => rfl) ?_
      fun _ h => h
    · obtain ⟨s, rfl, shown⟩ := appended
      have rest := appendGroups_yields cons versions hc column view hview fun y (hy : y ∈ rows) =>
        hheads y (by simp [hy])
      exact (rest _).congr Iff.rfl fun _ h => h.cons shown
    · simp

end

end

/-! ## The texts before the entries -/

/-- A member with a blank before its colon, and texts before the name and behind the colon. -/
def spaced (before behind key : String) (s : List UInt8) : List UInt8 :=
  bytes before ++ (bytes "\"" ++ (bytes key ++ (bytes "\"" ++ (bytes " " ++ (bytes ":" ++ (bytes behind ++ s))))))

/-- Nothing, or one blank. -/
def AtMostBlank (w : String) : Prop := w = "" ∨ w = " "

lemma denotesMember_spaced (key : String) {before behind : String} {s : List UInt8} {v : JsonNode}
    (h1 : AtMostBlank before) (h2 : AtMostBlank behind) (hk : Clean (bytes key)) (hv : Denotes s v) :
    DenotesMember (spaced before behind key s) (bytes key, v) := by
  have blanks : ∀ {w : String}, AtMostBlank w → Blanks (bytes w) := by
    rintro w (rfl | rfl)
    · have none_ : bytes "" = [] := by decide
      intro c hc
      rw [none_] at hc
      cases hc
    · have blank : bytes " " = [' '.toUInt8] := by decide
      intro c hc
      rw [blank, List.mem_singleton] at hc
      rw [hc]
      decide
  exact .named (blanks h1) (blanks (.inr rfl)) (blanks h2) (isContent_of_clean hk) hv

section
variable {db : Database}

def definitionView (d : Row) : List Value := ["id", "service_definition"].map d.get

def systemView (p : Row) : List Value := ["id", "system_name", "address", "port"].map p.get

lemma definitionHead_isHead (quotable : Quotable db) {d : Row} (hd : d ∈ (db "service_definition").rows) :
    IsHead "serviceDefinitionId" "providerServices" d (definitionHead (definitionView d)) := by
  intro texts vs denotes
  obtain ⟨name, hname⟩ := quotable.texts ("service_definition", "service_definition") (by decide +kernel) d hd
  have l1 : bytes "\"serviceDefinitionId\" : " = spaced "" " " "serviceDefinitionId" [] := by decide +kernel
  have l2 : bytes ", \"serviceDefinition\" : \"" =
      bytes "," ++ (spaced " " " " "serviceDefinition" [] ++ bytes "\"") := by decide +kernel
  have l3 : bytes ",\"providerServices\" : [" = bytes "," ++ (spaced "" " " "providerServices" [] ++ bytes "[") := by
    decide +kernel
  have l4 : bytes "]\x7d" = bytes "]" ++ bytes "\x7d" := by decide +kernel
  have text : definitionHead (definitionView d) ++ (commaList texts ++ bytes "]\x7d") =
      bytes "\x7b" ++ (commaList [spaced "" " " "serviceDefinitionId" (to_string d.id),
        spaced " " " " "serviceDefinition" (bytes "\"" ++ (textOf d "service_definition" ++ bytes "\"")),
        spaced "" " " "providerServices" (arrayText texts)] ++ bytes "\x7d") := by
    have c0 : cell (definitionView d) 0 = to_string d.id := rfl
    have c1 : cell (definitionView d) 1 = textOf d "service_definition" := rfl
    simp only [definitionHead, c0, c1, l1, l2, l3, l4, commaList, arrayText, spaced, List.append_assoc, List.append_nil]
  have m1 := denotesMember_spaced "serviceDefinitionId" (.inl rfl) (.inr rfl) (by decide +kernel) (.number d.id)
  have m2 := denotesMember_spaced "serviceDefinition" (.inr rfl) (.inr rfl) (by decide +kernel) (.of_spells hname)
  have m3 := denotesMember_spaced "providerServices" (.inl rfl) (.inr rfl) (by decide +kernel) (.array denotes)
  exact ⟨_, text ▸ Denotes.members (.cons m1 (.cons m2 (.cons m3 .nil))) (by simp), rfl, rfl⟩

lemma systemHead_isHead (quotable : Quotable db) {p : Row} (hp : p ∈ (db "system_").rows) (fits : SystemFits p) :
    IsHead "systemId" "services" p (systemHead (systemView p)) := by
  intro texts vs denotes
  obtain ⟨name, hname⟩ := quotable.texts ("system_", "system_name") (by decide +kernel) p hp
  obtain ⟨address, haddress⟩ := quotable.texts ("system_", "address") (by decide +kernel) p hp
  obtain ⟨port, hport, -⟩ := fits.port
  have l1 : bytes "\"systemId\" : " = spaced "" " " "systemId" [] := by decide +kernel
  have l2 : bytes ", \"systemName\" : \"" = bytes "," ++ (spaced " " " " "systemName" [] ++ bytes "\"") := by decide +kernel
  have l3 : bytes ", \"address\" : \"" = bytes "," ++ (spaced " " " " "address" [] ++ bytes "\"") := by decide +kernel
  have l4 : bytes "\", \"port\" : " = bytes "\"" ++ (bytes "," ++ spaced " " " " "port" []) := by decide +kernel
  have l5 : bytes ",\"services\" : [" = bytes "," ++ (spaced "" " " "services" [] ++ bytes "[") := by decide +kernel
  have l6 : bytes "]\x7d" = bytes "]" ++ bytes "\x7d" := by decide +kernel
  have text : systemHead (systemView p) ++ (commaList texts ++ bytes "]\x7d") =
      bytes "\x7b" ++ (commaList [spaced "" " " "systemId" (to_string p.id),
        spaced " " " " "systemName" (bytes "\"" ++ (textOf p "system_name" ++ bytes "\"")),
        spaced " " " " "address" (bytes "\"" ++ (textOf p "address" ++ bytes "\"")),
        spaced " " " " "port" (to_string port), spaced "" " " "services" (arrayText texts)] ++ bytes "\x7d") := by
    have c0 : cell (systemView p) 0 = to_string p.id := rfl
    have c1 : cell (systemView p) 1 = textOf p "system_name" := rfl
    have c2 : cell (systemView p) 2 = textOf p "address" := rfl
    have c3 : cell (systemView p) 3 = to_string port := textOf_value hport
    simp only [systemHead, c0, c1, c2, c3, l1, l2, l3, l4, l5, l6, commaList, arrayText, spaced, List.append_assoc,
      List.append_nil]
  have m1 := denotesMember_spaced "systemId" (.inl rfl) (.inr rfl) (by decide +kernel) (.number p.id)
  have m2 := denotesMember_spaced "systemName" (.inr rfl) (.inr rfl) (by decide +kernel) (.of_spells hname)
  have m3 := denotesMember_spaced "address" (.inr rfl) (.inr rfl) (by decide +kernel) (.of_spells haddress)
  have m4 := denotesMember_spaced "port" (.inr rfl) (.inr rfl) (by decide +kernel) (.number port)
  have m5 := denotesMember_spaced "services" (.inl rfl) (.inr rfl) (by decide +kernel) (.array denotes)
  exact ⟨_, text ▸ Denotes.members (.cons m1 (.cons m2 (.cons m3 (.cons m4 (.cons m5 .nil))))) (by simp), rfl, rfl⟩

/-! ## Lists for completion -/

/-- The item of an interface or of a definition. -/
lemma valueItem_eq (r : Row) (c : String) :
    ∃ s, valueItem (["id", c].map r.get) = s ++ bytes "," ∧ (IsContent (textOf r c) → ShowsKey s r) := by
  have l1 : bytes "\x7b\"id\" : " = bytes "\x7b" ++ spaced "" " " "id" [] := by decide
  have l2 : bytes ", \"value\" : \"" = bytes "," ++ (spaced " " " " "value" [] ++ bytes "\"") := by decide
  have l3 : bytes "\"\x7d," = bytes "\"" ++ (bytes "\x7d" ++ bytes ",") := by decide
  refine ⟨bytes "\x7b" ++ (commaList [spaced "" " " "id" (to_string r.id),
    spaced " " " " "value" (bytes "\"" ++ (textOf r c ++ bytes "\""))] ++ bytes "\x7d"), ?_, ?_⟩
  · have c0 : cell (["id", c].map r.get) 0 = to_string r.id := rfl
    have c1 : cell (["id", c].map r.get) 1 = textOf r c := rfl
    simp only [valueItem, c0, c1, l1, l2, l3, commaList, spaced, List.append_assoc, List.append_nil]
  · rintro ⟨name, hname⟩
    have m1 := denotesMember_spaced "id" (.inl rfl) (.inr rfl) (by decide) (.number r.id)
    have m2 := denotesMember_spaced "value" (.inr rfl) (.inr rfl) (by decide) (.of_spells hname)
    exact ⟨_, Denotes.members (.cons m1 (.cons m2 .nil)) (by simp)⟩

lemma appendValues_appends {c : String} : ∀ {rows : List Row}, (∀ r ∈ rows, Quotable db → IsContent (textOf r c)) →
    ∀ resp, Appends db ShowsKey resp rows (appendValues (rows.map fun r => ["id", c].map r.get) resp)
  | [], _, _ => Appends.nil
  | r :: rows, h, resp => by
    obtain ⟨s, item, shown⟩ := valueItem_eq r c
    rw [List.map_cons, appendValues, List.foldl_cons, item]
    exact (appendValues_appends (fun x hx => h x (by simp [hx])) _).cons fun quotable => shown (h r (by simp) quotable)

/-! ## The whole listing -/

/-- What the program needs to reach its end. -/
structure Reaches (db : Database) : Prop where
  systems : ∀ p ∈ (db "system_").rows, SystemFits p
  byDefinition : ∀ d ∈ (db "service_definition").rows, GroupFits db "service_id" d
  bySystem : ∀ p ∈ (db "system_").rows, GroupFits db "system_id" p

lemma mem_groupRows {c : String} {n : Nat} {r : Row} :
    r ∈ groupRows db c n ↔ r ∈ (db "service_registry").rows ∧ r.get c = .int n := by
  simp [groupRows]

lemma groupRows_ne_nil {c : String} {n : Nat} :
    groupRows db c n ≠ [] ↔ ∃ r ∈ (db "service_registry").rows, r.get c = .int n := by
  simp [groupRows, List.filter_eq_nil_iff]

/-- With systems this is what the tables need to be listed. -/
lemma presentable_iff (cons : Consistent db) : Presentable db ↔ (db "system_").rows ≠ [] ∧ Reaches db := by
  constructor
  · intro h
    have shown : ∀ r ∈ (db "service_registry").rows, EntryShown db r := fun r hr =>
      ⟨h.entries r hr, fun d hd _ => (h.definitions d hd).1, fun p hp _ => (h.systems p hp).1⟩
    refine ⟨h.nonempty, fun p hp => (h.systems p hp).1, fun d hd => ⟨?_, fun r hr => ?_⟩, fun p hp =>
      ⟨?_, fun r hr => ?_⟩⟩
    · exact groupRows_ne_nil.2 (h.definitions d hd).2
    · exact shown r (mem_groupRows.1 hr).1
    · exact groupRows_ne_nil.2 (h.systems p hp).2
    · exact shown r (mem_groupRows.1 hr).1
  · rintro ⟨nonempty, h⟩
    refine ⟨nonempty, fun p hp => ⟨h.systems p hp, ?_⟩, fun d hd => ?_, fun r hr => ?_⟩
    · exact groupRows_ne_nil.1 (h.bySystem p hp).1
    · obtain ⟨r, hr, e⟩ := groupRows_ne_nil.1 (h.byDefinition d hd).1
      exact ⟨((h.byDefinition d hd).2 r (mem_groupRows.2 ⟨hr, e⟩)).2.definition d hd e, r, hr, e⟩
    · obtain ⟨d, hd, e⟩ := cons.refers (.head _) hr
      exact ((h.byDefinition d hd).2 r (mem_groupRows.2 ⟨hr, e⟩)).1

lemma denotes_groups {c key list : String} {texts : List (List UInt8)} {rows : List Row}
    (h : List.Forall₂ (ShowsGroup db c key list) texts rows) :
    ∃ gs, List.Forall₂ Denotes texts gs ∧
      (gs.flatMap fun g => (shownKeys list g).map fun id => (nodeAt key g, id)) =
        rows.flatMap fun x => (groupRows db c x.id).map fun r => (keyNode (r.get c), idNode r) := by
  induction h with
  | nil => exact ⟨[], .nil, rfl⟩
  | @cons s x texts rows hs _ ih =>
    obtain ⟨g, denotes, hkey, keys⟩ := hs
    obtain ⟨gs, hgs, e⟩ := ih
    refine ⟨g :: gs, .cons denotes hgs, ?_⟩
    rw [List.flatMap_cons, List.flatMap_cons, e, keys, hkey, List.map_map]
    congr 1
    refine List.map_congr_left fun r hr => ?_
    rw [Function.comp_apply, (mem_groupRows.1 hr).2]
    rfl

/-- The groups have every entry once, each under its key. -/
lemma placed_perm {c key list : String} {texts : List (List UInt8)} {t : String}
    (hc : ("service_registry", c, t) ∈ foreignKeys) (cons : Consistent db) (h : List.Forall₂ (ShowsGroup db c key list) texts (db t).rows) :
    ∃ gs, List.Forall₂ Denotes texts gs ∧ ∀ name tree, itemsAt name tree = gs →
      (placed name key list tree).Perm
        ((db "service_registry").rows.map fun r => (keyNode (r.get c), idNode r)) := by
  obtain ⟨gs, denotes, e⟩ := denotes_groups h
  refine ⟨gs, denotes, fun name tree items => ?_⟩
  rw [placed, items, e, ← List.map_flatMap]
  refine List.Perm.map _ ?_
  have nodup : ((db t).rows.map fun x : Row => Value.int x.id).Nodup := by
    have ids : ((db t).rows.map Row.id).Nodup := List.pairwise_map.2 ((db t).ordered.imp fun h => Nat.ne_of_lt h)
    have := ids.map (f := fun n : Nat => Value.int n) fun a b h => by simpa using h
    rwa [List.map_map] at this
  have perm := flatMap_filter_perm (fun r : Row => r.get c) (db "service_registry").rows nodup fun r hr => by
    obtain ⟨x, hx, e⟩ := cons.keys _ hc r hr
    exact List.mem_map.2 ⟨x, hx, e.symm⟩
  rwa [List.flatMap_map] at perm

/-- Every table that the listing needs has rows. -/
def Populated (db : Database) : Prop :=
  (db "service_interface").rows ≠ [] ∧ (db "service_definition").rows ≠ [] ∧ (db "system_").rows ≠ []

/-- The text is a listing as it should be, if the tables have rows; without systems it ends with a name. -/
structure GroupedText (db : Database) (text : List UInt8) : Prop where
  lists : Quotable db → Populated db → ∃ tree, Denotes text tree ∧ WellGrouped db tree
  empty : (db "system_").rows = [] → OpenEnd text

lemma groupedText_of_appends (cons : Consistent db) {i d s g h : List UInt8}
    (hi : Appends db ShowsKey (bytes "\x7b \"autoCompleteData\" : \x7b \"interfaceList\" : [")
      (db "service_interface").rows i)
    (hd : Appends db ShowsKey (setBack ']'.toUInt8 i ++ bytes ",\"serviceList\" : [") (db "service_definition").rows d)
    (hs : Appends db ShowsKey (setBack ']'.toUInt8 d ++ bytes ",\"systemList\" : [") (db "system_").rows s)
    (hg : Appends db (ShowsGroup db "service_id" "serviceDefinitionId" "providerServices")
      (setBack ']'.toUInt8 s ++ (bytes "\x7d," ++ bytes "\"servicesGroupedByServiceDefinition\" :["))
      (db "service_definition").rows g)
    (hh : Appends db (ShowsGroup db "system_id" "systemId" "services")
      (setBack ']'.toUInt8 g ++ bytes ",\"servicesGroupedBySystems\" :[") (db "system_").rows h) :
    GroupedText db (setBack ']'.toUInt8 h ++ bytes "\x7d") := by
  constructor
  · rintro quotable ⟨interfaces, definitions, systems⟩
    obtain ⟨is, ei, -, hi⟩ := hi.close interfaces
    obtain ⟨ds, ed, -, hd⟩ := hd.close definitions
    obtain ⟨ss, es, -, hs⟩ := hs.close systems
    obtain ⟨gs, eg, -, hg⟩ := hg.close definitions
    obtain ⟨hs', eh, -, hh⟩ := hh.close systems
    obtain ⟨vi, di, ki⟩ := denotes_shownKeys (hi quotable)
    obtain ⟨vd, dd, kd⟩ := denotes_shownKeys (hd quotable)
    obtain ⟨vs, ds', ks⟩ := denotes_shownKeys (hs quotable)
    obtain ⟨vg, dg, byDefinition⟩ := placed_perm (by simp [foreignKeys]) cons (hg quotable)
    obtain ⟨vh, dh, bySystem⟩ := placed_perm (by simp [foreignKeys]) cons (hh quotable)
    have m1 := denotesMember_spaced "interfaceList" (.inr rfl) (.inr rfl) (by decide +kernel) (.array di)
    have m2 := denotesMember_spaced "serviceList" (.inl rfl) (.inr rfl) (by decide +kernel) (.array dd)
    have m3 := denotesMember_spaced "systemList" (.inl rfl) (.inr rfl) (by decide +kernel) (.array ds')
    have completion := Denotes.members (.cons m1 (.cons m2 (.cons m3 .nil))) (by simp)
    have n1 := denotesMember_spaced "autoCompleteData" (.inr rfl) (.inr rfl) (by decide +kernel) completion
    have n2 := denotesMember_spaced "servicesGroupedByServiceDefinition" (.inl rfl) (.inl rfl) (by decide +kernel) (.array dg)
    have n3 := denotesMember_spaced "servicesGroupedBySystems" (.inl rfl) (.inl rfl) (by decide +kernel) (.array dh)
    have whole := Denotes.members (.cons n1 (.cons n2 (.cons n3 .nil))) (by simp)
    have l1 : bytes "\x7b \"autoCompleteData\" : \x7b \"interfaceList\" : [" =
        bytes "\x7b" ++ (spaced " " " " "autoCompleteData" [] ++ (bytes "\x7b" ++
          (spaced " " " " "interfaceList" [] ++ bytes "["))) := by decide +kernel
    have l2 : bytes ",\"serviceList\" : [" = bytes "," ++ (spaced "" " " "serviceList" [] ++ bytes "[") := by decide +kernel
    have l3 : bytes ",\"systemList\" : [" = bytes "," ++ (spaced "" " " "systemList" [] ++ bytes "[") := by decide +kernel
    have l4 : bytes "\x7d," ++ bytes "\"servicesGroupedByServiceDefinition\" :[" = bytes "\x7d" ++ (bytes "," ++
        (spaced "" "" "servicesGroupedByServiceDefinition" [] ++ bytes "[")) := by decide +kernel
    have l5 : bytes ",\"servicesGroupedBySystems\" :[" =
        bytes "," ++ (spaced "" "" "servicesGroupedBySystems" [] ++ bytes "[") := by decide +kernel
    refine ⟨.object [(bytes "autoCompleteData", .object [(bytes "interfaceList", .array vi),
      (bytes "serviceList", .array vd), (bytes "systemList", .array vs)]),
      (bytes "servicesGroupedByServiceDefinition", .array vg), (bytes "servicesGroupedBySystems", .array vh)], ?_,
      ⟨_, _, _, rfl⟩, byDefinition _ _ rfl, bySystem _ _ rfl, vi, vd, vs, rfl, ki, kd, ks⟩
    rw [eh, eg, es, ed, ei, l1, l2, l3, l4, l5]
    simp only [commaList, arrayText, spaced, List.append_assoc, List.append_nil] at whole ⊢
    exact whole
  · intro none_
    rw [none_] at hh
    have name : bytes ",\"servicesGroupedBySystems\" :[" =
        bytes ",\"servicesGroupedBySystems\" :" ++ ['['.toUInt8] := by decide +kernel
    have ends : bytes ",\"servicesGroupedBySystems\" :" =
        bytes ",\"servicesGroupedBySystems\" " ++ [':'.toUInt8] := by decide +kernel
    have bracket : bytes "\x7d" = ['}'.toUInt8] := by decide +kernel
    refine .inr (.inr ⟨setBack ']'.toUInt8 g ++ bytes ",\"servicesGroupedBySystems\" ", ?_⟩)
    rw [hh.eq_of_nil, name, ← List.append_assoc, setBack_concat, ends, bracket]
    simp only [List.append_assoc, List.cons_append, List.nil_append]

lemma processMgmtGetGrouped_yields {link : Link} (hlink : ∀ n, link.fault n = .none) (cons : Consistent db)
    (versions : ∀ r ∈ (db "service_registry").rows, IntColumn r "version") :
    Yields db Except.ok (processMgmtGetGrouped.run link) (Reaches db) (GroupedText db) := by
  have p1 : parse (bytes "SELECT id,interface_name FROM service_interface") = some (.select
      ⟨some (["id", "interface_name"].map (.col none)), ⟨"service_interface", "service_interface"⟩, [], none, []⟩) := by
    decide +kernel
  have p2 : parse (bytes "SELECT id,service_definition FROM service_definition") = some (.select
      ⟨some (["id", "service_definition"].map (.col none)), ⟨"service_definition", "service_definition"⟩, [], none,
        []⟩) := by decide +kernel
  have p3 : parse (bytes "SELECT id FROM system_") = some (.select
      ⟨some (["id"].map (.col none)), ⟨"system_", "system_"⟩, [], none, []⟩) := by decide +kernel
  have p4 : parse (bytes "SELECT id,system_name,address,port FROM system_") = some (.select
      ⟨some (["id", "system_name", "address", "port"].map (.col none)), ⟨"system_", "system_"⟩, [], none, []⟩) := by
    decide +kernel
  have interfaces : Gives db _ _ := columns_gives hlink p1 (by decide) (by decide +kernel)
  have definitions : Gives db _ _ := columns_gives hlink p2 (by decide) (by decide +kernel)
  have keys : Gives db _ _ := columns_gives hlink p3 (by decide) (by decide +kernel)
  have systems : Gives db _ _ := columns_gives hlink p4 (by decide) (by decide +kernel)
  have service := isName_definitionId
  have system : IsName (bytes "system_id") "system_id" := by decide +kernel
  unfold processMgmtGetGrouped
  simp only [Program.run_bind, Program.run_fetch]
  refine .of_gives interfaces (.of_gives definitions (.of_gives keys ?_))
  have hi := appendValues_appends (fun r hr (quotable : Quotable db) =>
    quotable.texts ("service_interface", "interface_name") (by decide +kernel) r hr)
    (bytes "\x7b \"autoCompleteData\" : \x7b \"interfaceList\" : [")
  have hd := appendValues_appends (fun r hr (quotable : Quotable db) =>
    quotable.texts ("service_definition", "service_definition") (by decide +kernel) r hr)
  refine Yields.congr (Yields.bind (appendSystems_yields hlink cons.typed (fun p hp => hp) _).and_cond
    (d := (∀ d ∈ (db "service_definition").rows, GroupFits db "service_id" d) ∧
      ∀ p ∈ (db "system_").rows, GroupFits db "system_id" p) ?_ fun a ha => absurd rfl (ha a)) ?_ fun _ h => h
  · rintro s ⟨hs, fits⟩
    refine .of_gives definitions ?_
    refine (appendGroups_yields hlink cons versions service (.inl rfl) definitionView (fun _ => rfl)
      (fun d hd quotable => definitionHead_isHead quotable hd) _).andThen (fun g hg => ?_) fun _ => rfl
    simp only [Program.run_bind, Program.run_fetch]
    refine .of_gives systems ?_
    have groups := appendGroups_yields hlink cons versions system (.inr rfl) systemView (fun _ => rfl)
      fun p hp quotable => systemHead_isHead quotable hp (fits p hp)
    refine Yields.congr ((groups _).andThen (d := True) (fun h hh => ?_) fun _ => rfl) (and_true _).to_iff fun _ h => h
    exact Yields.pure Except.ok _ (groupedText_of_appends cons hi (hd _) hs hg hh)
  · exact ⟨fun ⟨h1, h2, h3⟩ => ⟨h1, h2, h3⟩, fun ⟨h1, h2, h3⟩ => ⟨h1, h2, h3⟩⟩

/-- An entry has a system, and one that is connected has an interface and a definition. -/
lemma Presentable.populated (cons : Consistent db) (h : Presentable db) : Populated db := by
  obtain ⟨p, hp⟩ := List.exists_mem_of_ne_nil _ h.nonempty
  obtain ⟨-, r, hr, -⟩ := h.systems p hp
  obtain ⟨c, hc, -⟩ := (h.entries r hr).connected
  obtain ⟨d, hd, -⟩ := cons.refers (.head _) hr
  obtain ⟨x, hx, -⟩ := cons.refers (.tail _ (.tail _ (.tail _ (.head _)))) hc
  exact ⟨List.ne_nil_of_mem hx, List.ne_nil_of_mem hd, h.nonempty⟩

variable {link : Link} (hlink : ∀ n, link.fault n = .none) (cons : Consistent db)
  (versions : ∀ r ∈ (db "service_registry").rows, IntColumn r "version")
include hlink cons versions

lemma listsGrouped_needs (h : ListsGrouped link db) : Presentable db := by
  obtain ⟨text, s', n, tree, run, document, -⟩ := h
  have yields := processMgmtGetGrouped_yields hlink cons versions
  have reaches := yields.needs _ rfl text s' run
  refine (presentable_iff cons).2 ⟨fun none_ => ?_, reaches⟩
  obtain ⟨text', gives, grouped⟩ := yields.gives reaches
  obtain ⟨k, e⟩ := gives ⟨db, none, 0⟩ rfl
  rw [run] at e
  cases e
  exact not_openEnd_of_document document (grouped.empty none_)

lemma listsGrouped_of (quotable : Quotable db) (h : Presentable db) : ListsGrouped link db := by
  have reaches := ((presentable_iff cons).1 h).2
  obtain ⟨text, gives, grouped⟩ := (processMgmtGetGrouped_yields hlink cons versions).gives reaches
  obtain ⟨k, e⟩ := gives ⟨db, none, 0⟩ rfl
  obtain ⟨tree, denotes, wellGrouped⟩ := grouped.lists quotable (h.populated cons)
  obtain ⟨n, document⟩ := denotes.document
  exact ⟨text, _, n, tree, e, document, wellGrouped⟩

/-- For every consistent content of the tables: the grouped listing is a JSON text with every entry once under its
    definition, once under its system and nowhere else only if the tables can be listed in groups, and if they can and
    their texts may stand between quotes. -/
theorem grouped_iff :
    (ListsGrouped link db → Presentable db) ∧ (Quotable db → (ListsGrouped link db ↔ Presentable db)) :=
  ⟨listsGrouped_needs hlink cons versions, fun quotable =>
    ⟨listsGrouped_needs hlink cons versions, listsGrouped_of hlink cons versions quotable⟩⟩

end

lemma consistent_twoProviders : Consistent twoProviders :=
  reachable_twoProviders.consistent (by simp [Request.isRegister])

lemma versions_twoProviders : ∀ r ∈ (twoProviders "service_registry").rows, IntColumn r "version" := by
  have one : ∀ r ∈ (twoProviders "service_registry").rows, r.get "version" = .int 1 := by decide +kernel
  exact fun r hr => .inr ⟨1, one r hr, by decide +kernel⟩

/-- Two thermometers under one definition and under two systems. -/
theorem grouped_two : ListsGrouped {} twoProviders := by
  have texts : ∀ k ∈ quotedColumns, ∀ r ∈ (twoProviders k.1).rows, Clean (textOf r k.2) := by decide +kernel
  have metadata : ∀ r ∈ (twoProviders "service_registry").rows, storedPairs (textOf r "metadata") = [] := by
    decide +kernel
  have quotable : Quotable twoProviders := by
    refine ⟨fun k hk r hr => isContent_of_clean (texts k hk r hr), fun r hr kv hkv => ?_⟩
    rw [metadata r hr] at hkv
    cases hkv
  have ports : ∀ p ∈ (twoProviders "system_").rows, p.id < 2 ^ 31 ∧ p.get "port" = .int 8080 := by decide +kernel
  have interfaces : ∀ c ∈ (twoProviders "service_registry_interface_connection").rows,
      c.get "interface_id" = .int 1 := by decide +kernel
  have versions : ∀ r ∈ (twoProviders "service_registry").rows, r.get "version" ≠ .null := by decide +kernel
  refine ((grouped_iff (fun _ => rfl) consistent_twoProviders versions_twoProviders).2 quotable).2
    ⟨by decide +kernel, fun p hp => ⟨⟨(ports p hp).1, 8080, (ports p hp).2, by decide +kernel⟩, ?_⟩, by decide +kernel, ?_⟩
  · have all : ∀ p ∈ (twoProviders "system_").rows, ∃ r ∈ (twoProviders "service_registry").rows,
        r.get "system_id" = .int p.id := by decide +kernel
    exact all p hp
  · have all : ∀ r ∈ (twoProviders "service_registry").rows, r.id < 2 ^ 31 ∧
        ∃ c ∈ (twoProviders "service_registry_interface_connection").rows, c.get "service_registry_id" = .int r.id := by
      decide +kernel
    intro r hr
    refine ⟨(all r hr).1, versions r hr, (all r hr).2, fun c hc _ i hi => ?_⟩
    rw [interfaces c hc] at hi
    have : i = 1 := by simpa using hi.symm
    omega

/-- The tables with a definition that has no entry. -/
def unusedDefinition : Database := (storeDefinition ({} : Link).stamp (bytes "humidity") twoProviders).2

/-- Empty tables give a text that ends with a name, and a definition without an entry gives an error. -/
theorem not_grouped :
    (Consistent emptyDatabase ∧ ¬ListsGrouped {} emptyDatabase) ∧
      Consistent unusedDefinition ∧ ¬ListsGrouped {} unusedDefinition := by
  have cons : Consistent unusedDefinition := (storeDefinition_grows _ _ _).consistent consistent_twoProviders
  have versions : ∀ r ∈ (unusedDefinition "service_registry").rows, IntColumn r "version" := versions_twoProviders
  refine ⟨⟨consistent_empty, fun h => ?_⟩, cons, fun h => ?_⟩
  · have empty : ∀ r ∈ (emptyDatabase "service_registry").rows, IntColumn r "version" := fun r hr => by cases hr
    exact (listsGrouped_needs (fun _ => rfl) consistent_empty empty h).nonempty rfl
  · have unused : ¬∀ d ∈ (unusedDefinition "service_definition").rows, d.id < 2 ^ 31 ∧
        ∃ r ∈ (unusedDefinition "service_registry").rows, r.get "service_id" = .int d.id := by decide
    exact unused (listsGrouped_needs (fun _ => rfl) cons versions h).definitions

end ArrowheadCore.ServiceRegistry
