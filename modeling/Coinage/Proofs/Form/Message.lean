import Coinage.Proofs.Form.Meaning

/-! Messages with one operation. A message is an object that has the arguments of its operation under
the name of it, and nothing else but names of other operations with `null`. So it stands for one command
or query at most, and every command whose numbers are in range, and every query, has such messages. -/

namespace Coinage

namespace Form

open Checked Reader Meaning

variable {α : Type}

/-- The members name one operation, with these arguments: there are no keys but names of operations, and
a name of another one has no value but `null`. -/
structure Names (names : List Text) (members : List (Text × Json)) (name : Text) (arguments : Json) :
    Prop where
  known : ∀ m ∈ members, m.1 ∈ names
  given : Json.get? members name = some arguments
  notNull : arguments ≠ .null
  others : ∀ other ∈ names, other ≠ name →
    Json.get? members other = none ∨ Json.get? members other = some .null

/-- A message without further members names its operation. -/
theorem names_single {names : List Text} {name : Text} (h : name ∈ names) {arguments : Json}
    (hnull : arguments ≠ .null) : Names names [(name, arguments)] name arguments where
  known := by simpa using h
  given := by simp [Json.get?]
  notNull := hnull
  others other _ hother := by
    have hne : (other == name) = false := beq_false_of_ne hother
    simp [Json.get?, List.lookup_cons, hne]

/-- A further name with `null` changes nothing. -/
theorem Names.cons_null {names : List Text} {members : List (Text × Json)} {name other : Text}
    {arguments : Json} (h : Names names members name arguments) (hmem : other ∈ names)
    (hother : other ≠ name) : Names names ((other, .null) :: members) name arguments where
  known := List.forall_mem_cons.mpr ⟨hmem, h.known⟩
  given := by
    have hne : (name == other) = false := beq_false_of_ne hother.symm
    rw [Json.get?, List.lookup_cons, hne]
    exact h.given
  notNull := h.notNull
  others key hkey hne := by
    rw [Json.get?, List.lookup_cons]
    split
    · exact .inr rfl
    · exact h.others key hkey hne

namespace Reader

theorem nothingBut_eq_accepted_iff {o : Object} {known : List Text} {u : Unit} :
    o.nothingBut known = .accepted u ↔ ∀ m ∈ o.members, m.1 ∈ known := by
  have hextra : (o.members.filter fun m => !known.contains m.1) = [] ↔
      ∀ m ∈ o.members, m.1 ∈ known := by
    simp
  rw [Object.nothingBut, ← hextra]
  split
  · next h => exact iff_of_true rfl h
  · next h => exact iff_of_false nofun h

variable {read : Reader α} {o : Object} {name : Text}

theorem optional_eq_none_iff :
    o.optional name none (nullable read) = .accepted none ↔
      Json.get? o.members name = none ∨ Json.get? o.members name = some .null := by
  rw [Object.optional]
  rcases Json.get? o.members name with _ | v
  · simp
  · cases v <;> simp [nullable, map_eq_accepted_iff]

theorem optional_eq_some_iff {a : α} :
    o.optional name none (nullable read) = .accepted (some a) ↔
      ∃ v, Json.get? o.members name = some v ∧ v ≠ .null ∧ read (o.pathTo name) v = .accepted a := by
  rw [Object.optional]
  rcases Json.get? o.members name with _ | v
  · simp
  · cases v <;> simp [nullable, map_eq_accepted_iff]

theorem tagged_eq_accepted_iff {readers : List (Text × Reader α)} {path : Path} {v : Json} {a : α} :
    tagged readers path v = .accepted a ↔
      ∃ members, ∃ given : List (Option α), v = .obj members ∧
        (∀ m ∈ members, m.1 ∈ readers.map Prod.fst) ∧
        (readers.map fun r => (⟨path, members⟩ : Object).optional r.1 none (nullable r.2)) =
          given.map .accepted ∧
        given.filterMap id = [a] := by
  simp only [tagged, object_eq_accepted_iff, andThen_eq_accepted_iff, seq_eq_accepted_iff,
    map_eq_accepted_iff, all_eq_accepted_iff, nothingBut_eq_accepted_iff]
  constructor
  · rintro ⟨members, rfl, _, ⟨_, _, ⟨given, hgiven, rfl⟩, hknown, rfl⟩, hone⟩
    refine ⟨members, given, rfl, hknown, hgiven, ?_⟩
    simp only [Function.const_apply] at hone
    split at hone
    · next heq =>
        cases hone
        exact heq
    · exact absurd hone issue_ne_accepted
  · rintro ⟨members, given, rfl, hknown, hgiven, hone⟩
    refine ⟨members, rfl, given, ⟨_, (), ⟨given, hgiven, rfl⟩, hknown, rfl⟩, ?_⟩
    simp only [hone]

/-- **A message is read as what it names.** -/
theorem tagged_eq_accepted_iff_names {readers : List (Text × Reader α)}
    (hnodup : (readers.map Prod.fst).Nodup) {path : Path} {v : Json} {a : α} :
    tagged readers path v = .accepted a ↔
      ∃ members name read arguments, v = .obj members ∧ (name, read) ∈ readers ∧
        Names (readers.map Prod.fst) members name arguments ∧
        read (path ++ [.key name]) arguments = .accepted a := by
  rw [tagged_eq_accepted_iff]
  constructor
  · rintro ⟨members, given, rfl, hknown, hgiven, hone⟩
    -- What is given is nothing up to some operation, this one, and nothing behind it.
    obtain ⟨before, _, after, rfl, hbefore, rfl, hafter⟩ := List.filterMap_eq_cons_iff.mp hone
    rw [List.filterMap_eq_nil_iff] at hafter
    rw [List.map_append, List.map_cons, List.map_eq_append_iff] at hgiven
    obtain ⟨first, rest, rfl, hfirst, hrest⟩ := hgiven
    obtain ⟨⟨name, read⟩, last, rfl, hname, hlast⟩ := List.map_eq_cons_iff.mp hrest
    obtain ⟨arguments, hfound, hnull, hread⟩ := optional_eq_some_iff.mp hname
    refine ⟨members, name, read, arguments, rfl, by simp, ⟨hknown, hfound, hnull, ?_⟩, hread⟩
    have hnone : ∀ {rs : List (Text × Reader α)} {gs : List (Option α)}, (∀ g ∈ gs, id g = none) →
        (rs.map fun r => (⟨path, members⟩ : Object).optional r.1 none (nullable r.2)) =
          gs.map .accepted → ∀ r ∈ rs,
        Json.get? members r.1 = none ∨ Json.get? members r.1 = some .null := by
      intro rs gs hgs heq r hr
      have hmem := List.mem_map_of_mem hr (f := fun r : Text × Reader α =>
        (⟨path, members⟩ : Object).optional r.1 none (nullable r.2))
      rw [heq] at hmem
      obtain ⟨g, hg, hgr⟩ := List.mem_map.mp hmem
      obtain rfl : g = none := hgs g hg
      exact optional_eq_none_iff.mp hgr.symm
    intro other hother hne
    obtain ⟨r, hr, rfl⟩ := List.mem_map.mp hother
    rcases List.mem_append.mp hr with hr | hr
    · exact hnone hbefore hfirst r hr
    · rcases List.mem_cons.mp hr with rfl | hr
      · exact absurd rfl hne
      · exact hnone hafter hlast r hr
  · rintro ⟨members, name, read, arguments, rfl, hmem, hnames, hread⟩
    obtain ⟨first, last, rfl⟩ := List.append_of_mem hmem
    simp only [List.map_append, List.map_cons, List.nodup_append, List.nodup_cons] at hnodup
    obtain ⟨-, ⟨hlast, -⟩, hfirst⟩ := hnodup
    have hnone : ∀ rs : List (Text × Reader α), (∀ r ∈ rs, r.1 ≠ name) →
        (∀ r ∈ rs, r ∈ first ++ (name, read) :: last) →
        (rs.map fun r => (⟨path, members⟩ : Object).optional r.1 none (nullable r.2)) =
          (rs.map fun _ => (none : Option α)).map .accepted := by
      intro rs hne hsub
      rw [List.map_map]
      refine List.map_congr_left fun r hr => ?_
      exact optional_eq_none_iff.mpr (hnames.others r.1 (List.mem_map_of_mem (hsub r hr)) (hne r hr))
    refine ⟨members, (first.map fun _ => none) ++ some a :: last.map fun _ => none, rfl, hnames.known,
      ?_, ?_⟩
    · rw [List.map_append, List.map_cons, List.map_append, List.map_cons,
        hnone first (fun r hr => hfirst _ (List.mem_map_of_mem hr) name List.mem_cons_self)
          fun r hr => List.mem_append_left _ hr,
        hnone last (fun r hr hname => hlast (hname ▸ List.mem_map_of_mem hr))
          fun r hr => List.mem_append_right _ (List.mem_cons_of_mem _ hr)]
      exact congrArg (_ ++ · :: _)
        (optional_eq_some_iff.mpr ⟨arguments, hnames.given, hnames.notNull, hread⟩)
    · simp

/-- A message stands for what has the name of an operation and is given by the arguments of it, if all
that the readers of the operations accept is of this kind, and whatever is of this kind has a reader. -/
theorem accepts_tagged {readers : List (Text × Reader α)} (hnodup : (readers.map Prod.fst).Nodup)
    {nameOf : α → Text} {IsGivenBy : α → List (Text × Json) → Prop}
    (hsound : ∀ r ∈ readers, ∀ path v a, r.2 path v = .accepted a →
      nameOf a = r.1 ∧ ∃ arguments, v = .obj arguments ∧ IsGivenBy a arguments)
    (hcomplete : ∀ a arguments, IsGivenBy a arguments →
      ∃ r ∈ readers, r.1 = nameOf a ∧ ∀ path, r.2 path (.obj arguments) = .accepted a) :
    (tagged readers).Accepts fun v a => ∃ members arguments, v = .obj members ∧
      Names (readers.map Prod.fst) members (nameOf a) (.obj arguments) ∧ IsGivenBy a arguments := by
  intro path v a
  rw [tagged_eq_accepted_iff_names hnodup]
  constructor
  · rintro ⟨members, name, read, _, rfl, hmem, hmembers, hread⟩
    obtain ⟨rfl, arguments, rfl, hgiven⟩ := hsound _ hmem _ _ _ hread
    exact ⟨members, arguments, rfl, hmembers, hgiven⟩
  · rintro ⟨members, arguments, rfl, hmembers, hgiven⟩
    obtain ⟨⟨_, read⟩, hmem, rfl, hread⟩ := hcomplete a arguments hgiven
    exact ⟨members, _, read, .obj arguments, rfl, hmem, hmembers, hread _⟩

end Reader

end Form

open Form Meaning

namespace Command

/-- How the operation of a command is called in a message. -/
def operation : Command → Text
  | .createDenom .. => "create_denom"
  | .changeAdmin .. => "change_admin"
  | .mintTokens .. => "mint_tokens"
  | .burnTokens .. => "burn_tokens"
  | .forceTransfer .. => "force_transfer"
  | .setMetadata .. => "set_metadata"

def operations : List Text :=
  ["create_denom", "change_admin", "mint_tokens", "burn_tokens", "force_transfer", "set_metadata"]

theorem nodup_operations : operations.Nodup := by decide

theorem operation_mem (c : Command) : c.operation ∈ operations := by
  cases c <;> simp [operation, operations]

/-- The arguments are those of the command; who burns without saying from whom burns of its own. -/
def IsGivenBy : Command → List (Text × Json) → Prop
  | .createDenom subdenom metadata, arguments =>
    Requires arguments "subdenom" IsString subdenom ∧
      Allows arguments "metadata" none (IsNullOr IsRecord) metadata
  | .changeAdmin denom newAdmin, arguments =>
    Requires arguments "denom" IsString denom ∧ Requires arguments "new_admin_address" IsString newAdmin
  | .mintTokens denom amount recipient, arguments =>
    Requires arguments "denom" IsString denom ∧
      Requires arguments "amount" (IsIntegerWithin 0 maxAmount) amount ∧
      Requires arguments "mint_to_address" IsString recipient
  | .burnTokens denom amount holder, arguments =>
    Requires arguments "denom" IsString denom ∧
      Requires arguments "amount" (IsIntegerWithin 0 maxAmount) amount ∧
      Allows arguments "burn_from_address" (Text.ofString "") IsString holder
  | .forceTransfer denom amount source target, arguments =>
    Requires arguments "denom" IsString denom ∧
      Requires arguments "amount" (IsIntegerWithin 0 maxAmount) amount ∧
      Requires arguments "from_address" IsString source ∧
      Requires arguments "to_address" IsString target
  | .setMetadata denom metadata, arguments =>
    Requires arguments "denom" IsString denom ∧ Requires arguments "metadata" IsRecord metadata

/-- Every argument of a command, as it is. -/
def arguments : Command → List (Text × Json)
  | .createDenom subdenom metadata =>
    [("metadata", (metadata.map Metadata.toJson).getD .null), ("subdenom", .str subdenom)]
  | .changeAdmin denom newAdmin => [("denom", .str denom), ("new_admin_address", .str newAdmin)]
  | .mintTokens denom amount recipient =>
    [("amount", .num amount), ("denom", .str denom), ("mint_to_address", .str recipient)]
  | .burnTokens denom amount holder =>
    [("amount", .num amount), ("burn_from_address", .str holder), ("denom", .str denom)]
  | .forceTransfer denom amount source target =>
    [("amount", .num amount), ("denom", .str denom), ("from_address", .str source),
      ("to_address", .str target)]
  | .setMetadata denom metadata => [("denom", .str denom), ("metadata", metadata.toJson)]

/-- Every command whose numbers are in range can be given. -/
theorem isGivenBy_arguments {c : Command} (h : c.InRange) : c.IsGivenBy c.arguments := by
  have hamount := h.amount
  have hmetadata := h.metadata
  cases c with
  | createDenom _ metadata =>
      refine ⟨⟨_, rfl, rfl⟩, .inr ⟨_, rfl, ?_⟩⟩
      cases metadata with
      | none => rfl
      | some m => exact ⟨Json.noConfusion, isRecord_toJson (hmetadata m rfl)⟩
  | changeAdmin => exact ⟨⟨_, rfl, rfl⟩, ⟨_, rfl, rfl⟩⟩
  | mintTokens _ n =>
      exact ⟨⟨_, rfl, rfl⟩, ⟨_, rfl, isIntegerWithin_num (hamount n rfl)⟩, ⟨_, rfl, rfl⟩⟩
  | burnTokens _ n =>
      exact ⟨⟨_, rfl, rfl⟩, ⟨_, rfl, isIntegerWithin_num (hamount n rfl)⟩, .inr ⟨_, rfl, rfl⟩⟩
  | forceTransfer _ n =>
      exact ⟨⟨_, rfl, rfl⟩, ⟨_, rfl, isIntegerWithin_num (hamount n rfl)⟩, ⟨_, rfl, rfl⟩, ⟨_, rfl, rfl⟩⟩
  | setMetadata _ m => exact ⟨⟨_, rfl, rfl⟩, ⟨_, rfl, isRecord_toJson (hmetadata m rfl)⟩⟩

end Command

namespace Query

/-- How a question is called in a message. -/
def operation : Query → Text
  | .fullDenom .. => "full_denom"
  | .metadata .. => "metadata"
  | .admin .. => "admin"
  | .denomsByCreator .. => "denoms_by_creator"
  | .params => "params"

def operations : List Text := ["full_denom", "metadata", "admin", "denoms_by_creator", "params"]

theorem nodup_operations : operations.Nodup := by decide

/-- The arguments are those of the query. -/
def IsGivenBy : Query → List (Text × Json) → Prop
  | .fullDenom creator subdenom, arguments =>
    Requires arguments "creator_addr" IsString creator ∧ Requires arguments "subdenom" IsString subdenom
  | .metadata denom, arguments | .admin denom, arguments => Requires arguments "denom" IsString denom
  | .denomsByCreator creator, arguments => Requires arguments "creator" IsString creator
  | .params, _ => True

/-- Every argument of a query. -/
def arguments : Query → List (Text × Json)
  | .fullDenom creator subdenom => [("creator_addr", .str creator), ("subdenom", .str subdenom)]
  | .metadata denom | .admin denom => [("denom", .str denom)]
  | .denomsByCreator creator => [("creator", .str creator)]
  | .params => []

theorem isGivenBy_arguments (q : Query) : q.IsGivenBy q.arguments := by
  cases q with
  | fullDenom => exact ⟨⟨_, rfl, rfl⟩, ⟨_, rfl, rfl⟩⟩
  | metadata | admin | denomsByCreator => exact ⟨_, rfl, rfl⟩
  | params => trivial

end Query

namespace Form

open Checked Reader Meaning

/-- The JSON value names the operation of the command, with its arguments. -/
def IsCommand : Meaning Command := fun v c =>
  ∃ members arguments, v = .obj members ∧
    Names Command.operations members c.operation (.obj arguments) ∧ c.IsGivenBy arguments

def IsQuery : Meaning Query := fun v q =>
  ∃ members arguments, v = .obj members ∧
    Names Query.operations members q.operation (.obj arguments) ∧ q.IsGivenBy arguments

theorem accepts_command : command.Accepts IsCommand := by
  refine accepts_tagged ?names ?sound ?complete
  case names => exact Command.nodup_operations
  case sound =>
    simp only [List.forall_mem_cons, List.not_mem_nil, false_implies, implies_true, and_true]
    refine ⟨?createDenom, ?changeAdmin, ?mintTokens, ?burnTokens, ?forceTransfer, ?setMetadata⟩ <;>
      intro path v c hc <;>
      simp only [object_eq_accepted_iff, seq_eq_accepted_iff, map_eq_accepted_iff, amount,
        accepts_string.required, accepts_string.optional, accepts_metadata.required,
        accepts_metadata.nullable.optional, (accepts_integer 0 maxAmount).required] at hc
    case createDenom =>
      obtain ⟨arguments, rfl, _, metadata, ⟨subdenom, hsubdenom, rfl⟩, hmetadata, rfl⟩ := hc
      exact ⟨rfl, arguments, rfl, hsubdenom, hmetadata⟩
    case changeAdmin =>
      obtain ⟨arguments, rfl, _, newAdmin, ⟨denom, hdenom, rfl⟩, hadmin, rfl⟩ := hc
      exact ⟨rfl, arguments, rfl, hdenom, hadmin⟩
    case mintTokens =>
      obtain ⟨arguments, rfl, _, recipient, ⟨_, n, ⟨denom, hdenom, rfl⟩, hn, rfl⟩, hrecipient, rfl⟩ :=
        hc
      exact ⟨rfl, arguments, rfl, hdenom, hn, hrecipient⟩
    case burnTokens =>
      obtain ⟨arguments, rfl, _, holder, ⟨_, n, ⟨denom, hdenom, rfl⟩, hn, rfl⟩, hholder, rfl⟩ := hc
      exact ⟨rfl, arguments, rfl, hdenom, hn, hholder⟩
    case forceTransfer =>
      obtain ⟨arguments, rfl, _, target, ⟨_, source, ⟨_, n, ⟨denom, hdenom, rfl⟩, hn, rfl⟩, hsource,
        rfl⟩, htarget, rfl⟩ := hc
      exact ⟨rfl, arguments, rfl, hdenom, hn, hsource, htarget⟩
    case setMetadata =>
      obtain ⟨arguments, rfl, _, metadata, ⟨denom, hdenom, rfl⟩, hmetadata, rfl⟩ := hc
      exact ⟨rfl, arguments, rfl, hdenom, hmetadata⟩
  case complete =>
    intro c arguments hgiven
    simp only [List.exists_mem_cons_iff, List.not_mem_nil, false_and, exists_false, or_false, object,
      seq_eq_accepted_iff, map_eq_accepted_iff, amount, accepts_string.required,
      accepts_string.optional, accepts_metadata.required, accepts_metadata.nullable.optional,
      (accepts_integer 0 maxAmount).required]
    cases c with
    | createDenom => exact .inl ⟨rfl, fun _ => ⟨_, _, ⟨_, hgiven.1, rfl⟩, hgiven.2, rfl⟩⟩
    | changeAdmin => exact .inr (.inl ⟨rfl, fun _ => ⟨_, _, ⟨_, hgiven.1, rfl⟩, hgiven.2, rfl⟩⟩)
    | mintTokens =>
        obtain ⟨hdenom, hn, hrecipient⟩ := hgiven
        exact .inr (.inr (.inl
          ⟨rfl, fun _ => ⟨_, _, ⟨_, _, ⟨_, hdenom, rfl⟩, hn, rfl⟩, hrecipient, rfl⟩⟩))
    | burnTokens =>
        obtain ⟨hdenom, hn, hholder⟩ := hgiven
        exact .inr (.inr (.inr (.inl
          ⟨rfl, fun _ => ⟨_, _, ⟨_, _, ⟨_, hdenom, rfl⟩, hn, rfl⟩, hholder, rfl⟩⟩)))
    | forceTransfer =>
        obtain ⟨hdenom, hn, hsource, htarget⟩ := hgiven
        exact .inr (.inr (.inr (.inr (.inl ⟨rfl, fun _ =>
          ⟨_, _, ⟨_, _, ⟨_, _, ⟨_, hdenom, rfl⟩, hn, rfl⟩, hsource, rfl⟩, htarget, rfl⟩⟩))))
    | setMetadata =>
        exact .inr (.inr (.inr (.inr (.inr ⟨rfl, fun _ => ⟨_, _, ⟨_, hgiven.1, rfl⟩, hgiven.2, rfl⟩⟩))))

theorem accepts_query : query.Accepts IsQuery := by
  refine accepts_tagged ?names ?sound ?complete
  case names => exact Query.nodup_operations
  case sound =>
    simp only [List.forall_mem_cons, List.not_mem_nil, false_implies, implies_true, and_true]
    refine ⟨?fullDenom, ?metadata, ?admin, ?denomsByCreator, ?params⟩ <;>
      intro path v q hq <;>
      simp only [object_eq_accepted_iff, seq_eq_accepted_iff, map_eq_accepted_iff, pure_eq_accepted_iff,
        accepts_string.required] at hq
    case fullDenom =>
      obtain ⟨arguments, rfl, _, subdenom, ⟨creator, hcreator, rfl⟩, hsubdenom, rfl⟩ := hq
      exact ⟨rfl, arguments, rfl, hcreator, hsubdenom⟩
    case metadata | admin | denomsByCreator =>
      obtain ⟨arguments, rfl, _, hname, rfl⟩ := hq
      exact ⟨rfl, arguments, rfl, hname⟩
    case params =>
      obtain ⟨arguments, rfl, rfl⟩ := hq
      exact ⟨rfl, arguments, rfl, trivial⟩
  case complete =>
    intro q arguments hgiven
    simp only [List.exists_mem_cons_iff, List.not_mem_nil, false_and, exists_false, or_false, object,
      seq_eq_accepted_iff, map_eq_accepted_iff, pure_eq_accepted_iff, accepts_string.required]
    cases q with
    | fullDenom => exact .inl ⟨rfl, fun _ => ⟨_, _, ⟨_, hgiven.1, rfl⟩, hgiven.2, rfl⟩⟩
    | metadata => exact .inr (.inl ⟨rfl, fun _ => ⟨_, hgiven, rfl⟩⟩)
    | admin => exact .inr (.inr (.inl ⟨rfl, fun _ => ⟨_, hgiven, rfl⟩⟩))
    | denomsByCreator => exact .inr (.inr (.inr (.inl ⟨rfl, fun _ => ⟨_, hgiven, rfl⟩⟩)))
    | params => exact .inr (.inr (.inr (.inr ⟨rfl, fun _ => rfl⟩)))

section Given

variable {members : List (Text × Json)}

/-- A message with the arguments of a command is accepted as that command. -/
theorem command_of_names {c : Command} (h : c.InRange)
    (hnames : Names Command.operations members c.operation (.obj c.arguments)) (path : Path) :
    command path (.obj members) = .accepted c :=
  (accepts_command _ _ _).mpr ⟨members, _, rfl, hnames, Command.isGivenBy_arguments h⟩

/-- A message does not need to say what it is not about. -/
theorem command_single {c : Command} (h : c.InRange) (path : Path) :
    command path (.obj [(c.operation, .obj c.arguments)]) = .accepted c :=
  command_of_names h (names_single c.operation_mem Json.noConfusion) path

theorem query_of_names {q : Query}
    (hnames : Names Query.operations members q.operation (.obj q.arguments)) (path : Path) :
    query path (.obj members) = .accepted q :=
  (accepts_query _ _ _).mpr ⟨members, _, rfl, hnames, q.isGivenBy_arguments⟩

end Given

/-- **A message means one command or query.** An object that names the operation of a command whose
numbers are in range, or of a query, and gives all its arguments is accepted as just that. And what is
accepted is an object with an operation, the one that is not `null` under a known name, and with no
other keys than known names: it is accepted as what has this name and is given by these arguments, or
by their defaults, and no number in it is out of range. -/
theorem messages_mean_one :
    (∀ c : Command, c.InRange → ∀ members,
      Names Command.operations members c.operation (.obj c.arguments) →
        ∀ path, command path (.obj members) = .accepted c) ∧
    (∀ path v c, command path v = .accepted c ↔ IsCommand v c) ∧
    (∀ path v c, command path v = .accepted c → c.InRange) ∧
    (∀ (q : Query) (members),
      Names Query.operations members q.operation (.obj q.arguments) →
        ∀ path, query path (.obj members) = .accepted q) ∧
    (∀ path v q, query path v = .accepted q ↔ IsQuery v q) :=
  ⟨fun _ h _ hnames => command_of_names h hnames, accepts_command, ensures_command,
    fun _ _ hnames => query_of_names hnames, accepts_query⟩

/-- The largest amount can be burned by a message with a `null` under another name; a burning that gives
its amount as a text and no holder stands for one of the sender's own. -/
theorem burnings_accepted :
    let largest : Command := .burnTokens "factory/carol/gold" maxAmount "carol"
    let members : List (Text × Json) :=
      [("mint_tokens", .null), ("burn_tokens", .obj largest.arguments)]
    let short : Json :=
      .obj [("burn_tokens", .obj [("amount", .str "7"), ("denom", .str "factory/carol/gold")])]
    let own : Command := .burnTokens "factory/carol/gold" 7 ""
    (largest.InRange ∧ Names Command.operations members largest.operation (.obj largest.arguments) ∧
      command [] (.obj members) = .accepted largest) ∧
    command [] short = .accepted own ∧ IsCommand short own ∧ own.InRange := by
  intro largest members short own
  have hlargest : largest.InRange := Command.inRange_of_moved rfl rfl (by decide)
  have hnames : Names Command.operations members largest.operation (.obj largest.arguments) :=
    Names.cons_null (names_single (by decide) Json.noConfusion) (by decide) (by decide)
  have hshort : command [] short = .accepted own := by decide +kernel
  exact ⟨⟨hlargest, hnames, messages_mean_one.1 _ hlargest _ hnames _⟩, hshort,
    (messages_mean_one.2.1 _ _ _).mp hshort, messages_mean_one.2.2.1 _ _ _ hshort⟩

end Form

end Coinage
