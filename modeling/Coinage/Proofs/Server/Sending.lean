import Coinage.Proofs.Form.Message
import Coinage.Proofs.Server.Fidelity
import Coinage.Proofs.Text.Encoding

/-! Orders as they are sent. An operation is named by the one member of a message, and the members of
that say what it is to be done with. Whatever is to be burned or transferred, there is a request for it
just if its amount is in range. -/

namespace Coinage

open Form

namespace Server

open Checked Reader

/-- An object that is sent as JSON is read as what it is parsed to. -/
theorem readBody_compact {α : Type} {read : Reader α} {v v' : Json} {cs : List Char} {a : α}
    (hobject : Json.compactChars v = '{' :: '"' :: cs) (hparse : Json.parse v.compact = .ok v')
    (hread : read bodyPath v' = .accepted a) :
    readBody read (some "application/json") (Text.Utf8.encode v.compact) = .ok a := by
  have hcompact : v.compact = String.ofList ('{' :: '"' :: cs) := by rw [Json.compact, hobject]
  have hoctets : (Text.Utf8.encode v.compact).isEmpty = false := by
    rw [hcompact, Text.Utf8.encode, String.toList_ofList]
    rfl
  have hdecode : Text.Encoding.decode (Text.Utf8.encode v.compact) =
      some (Text.ofString v.compact) := by
    rw [hcompact]
    exact Text.Encoding.decode_encode_object cs
  have htype : (some "application/json").any isJsonType = true := by decide +kernel
  have hparsed : Json.parseText .standard (Text.ofString v.compact) = .ok v' := hparse
  simp only [readBody, hoctets, htype, hdecode, hparsed, hread]
  rfl

/-- The body of a request for an operation. -/
def orderBody (sender operation : String) (arguments : List (Text × Json)) : Json :=
  .obj [("msg", .obj [(operation, .obj arguments)]), ("sender", .str sender)]

open Json

theorem reads_string (s : String) : Reads 0 (compactChars (.str s)) (.str s) := by
  have hquoted := reads_quoted (s : Text)
  rwa [Text.joined_ofString] at hquoted

section Order

variable {sender operation : String} {arguments : List (Text × Json)}

theorem exists_compactChars_orderBody (sender operation : String) (arguments : List (Text × Json)) :
    ∃ cs, compactChars (orderBody sender operation arguments) = '{' :: '"' :: cs := by
  have hlt : compare (Text.ofString "msg") (Text.ofString "sender") = .lt := by decide
  have hordered : (compactMembers [(Text.ofString "msg", .obj [(Text.ofString operation,
      .obj arguments)]), (Text.ofString "sender", .str sender)]).Pairwise Precedes := by
    simp [compactMembers_eq_map, Precedes, hlt]
  rw [orderBody, compactChars, Table.entries_ofList hordered]
  exact ⟨_, rfl⟩

theorem parse_orderBody (hread : Reads 1 (compactChars (.obj arguments)) (.obj arguments)) :
    Json.parse (orderBody sender operation arguments).compact =
      .ok (orderBody sender operation arguments) := by
  have hmembers : (["msg", "sender"].map Text.ofString).Pairwise (compare · · = .lt) := by decide
  have hbody : Reads 3 (compactChars (orderBody sender operation arguments))
      (orderBody sender operation arguments) :=
    reads_record hmembers <| .cons ⟨"msg", rfl, rfl, reads_member hread⟩ <|
      .cons ⟨"sender", rfl, rfl, (reads_string sender).mono (by decide)⟩ .nil
  rw [compact]
  exact hbody.parse (by decide)

theorem order_orderBody (hsender : sender ≠ "") {c : Command}
    (hcommand : Form.command (bodyPath ++ [.key "msg"]) (.obj [(operation, .obj arguments)]) =
      .accepted c) :
    Form.order bodyPath (orderBody sender operation arguments) = .accepted ⟨sender, c⟩ := by
  have hnonempty : nonEmptyString (bodyPath ++ [.key "sender"]) (.str sender) = .accepted sender := by
    simp [nonEmptyString, encodableString, string, andThen, hsender]
  change Order.mk <$> nonEmptyString (bodyPath ++ [.key "sender"]) (.str sender) <*>
    Form.command (bodyPath ++ [.key "msg"]) (.obj [(operation, .obj arguments)]) = _
  rw [hnonempty, hcommand]
  rfl

/-- A request with the body is read as the order that the form makes of it. -/
theorem order?_post_orderBody (hsender : sender ≠ "")
    (hread : Reads 1 (compactChars (.obj arguments)) (.obj arguments)) {c : Command}
    (hcommand : Form.command (bodyPath ++ [.key "msg"]) (.obj [(operation, .obj arguments)]) =
      .accepted c) :
    (post "/v1/execute" (orderBody sender operation arguments)).order? = some ⟨sender, c⟩ := by
  have hpost : ∀ body, (post "/v1/execute" body).isPost "/v1/execute" = true := by
    intro body
    change (Text.capitals "POST" == "POST" &&
      Target.place (Target.path "/v1/execute") == "/v1/execute") = true
    decide +kernel
  obtain ⟨cs, hobject⟩ := exists_compactChars_orderBody sender operation arguments
  have hbody : readBody Form.order (some "application/json")
      (Text.Utf8.encode (orderBody sender operation arguments).compact) = .ok ⟨sender, c⟩ :=
    readBody_compact hobject (parse_orderBody hread) (order_orderBody hsender hcommand)
  refine Request.order?_eq_some_iff.mpr ⟨hpost _, ?_⟩
  dsimp only [post]
  exact hbody

end Order

/-! ### Amounts that can be named -/

/-- The arguments of a burning. -/
def burnArguments (denom : String) (n : Int) (holder : String) : List (Text × Json) :=
  [("amount", .num n), ("burn_from_address", .str holder), ("denom", .str denom)]

/-- The arguments of a forced transfer. -/
def transferArguments (denom : String) (n : Int) (source target : String) : List (Text × Json) :=
  [("amount", .num n), ("denom", .str denom), ("from_address", .str source), ("to_address", .str target)]

variable {denom : String} {n : Int}

theorem reads_amount (hn : 0 ≤ n ∧ n ≤ maxAmount) : Reads 0 (compactChars (.num n)) (.num n) := by
  have hshort : n.natAbs < 10 ^ 39 := by
    have hle := hn.2
    simp only [maxAmount] at hle
    omega
  exact reads_decimal
    (((Nat.length_toDigits_le_iff (by decide) (by decide)).mpr hshort).trans (by decide))

theorem reads_burnArguments (hn : 0 ≤ n ∧ n ≤ maxAmount) (holder : String) :
    Reads 1 (compactChars (.obj (burnArguments denom n holder)))
      (.obj (burnArguments denom n holder)) := by
  have hordered : (["amount", "burn_from_address", "denom"].map Text.ofString).Pairwise
      (compare · · = .lt) := by decide
  exact reads_record hordered <|
    .cons ⟨"amount", rfl, rfl, reads_amount hn⟩ <|
    .cons ⟨"burn_from_address", rfl, rfl, reads_string holder⟩ <|
    .cons ⟨"denom", rfl, rfl, reads_string denom⟩ .nil

theorem reads_transferArguments (hn : 0 ≤ n ∧ n ≤ maxAmount) (source target : String) :
    Reads 1 (compactChars (.obj (transferArguments denom n source target)))
      (.obj (transferArguments denom n source target)) := by
  have hordered : (["amount", "denom", "from_address", "to_address"].map Text.ofString).Pairwise
      (compare · · = .lt) := by decide
  exact reads_record hordered <|
    .cons ⟨"amount", rfl, rfl, reads_amount hn⟩ <|
    .cons ⟨"denom", rfl, rfl, reads_string denom⟩ <|
    .cons ⟨"from_address", rfl, rfl, reads_string source⟩ <|
    .cons ⟨"to_address", rfl, rfl, reads_string target⟩ .nil

theorem command_burn (hn : 0 ≤ n ∧ n ≤ maxAmount) (denom holder : String) (path : Path) :
    Form.command path (.obj [("burn_tokens", .obj (burnArguments denom n holder))]) =
      .accepted (.burnTokens denom n holder) :=
  command_single (c := .burnTokens denom n holder) (Command.inRange_of_moved rfl rfl hn) path

theorem command_transfer (hn : 0 ≤ n ∧ n ≤ maxAmount) (denom source target : String) (path : Path) :
    Form.command path (.obj [("force_transfer", .obj (transferArguments denom n source target))]) =
      .accepted (.forceTransfer denom n source target) :=
  command_single (c := .forceTransfer denom n source target) (Command.inRange_of_moved rfl rfl hn) path

section Amount

variable {sender : String} (hsender : sender ≠ "")

include hsender

/-- **What can be burned by one request is what is in range.** -/
theorem exists_order?_burn_iff {denom holder : String} {n : Int} :
    (∃ request : Request, request.order? = some ⟨sender, .burnTokens denom n holder⟩) ↔
      0 ≤ n ∧ n ≤ maxAmount := by
  constructor
  · rintro ⟨request, horder⟩
    exact (Request.inRange_of_order? horder).amount n rfl
  · intro hn
    exact ⟨_, order?_post_orderBody hsender (reads_burnArguments hn holder) (command_burn hn _ _ _)⟩

/-- **What can be transferred by one request is what is in range.** -/
theorem exists_order?_transfer_iff {denom source target : String} {n : Int} :
    (∃ request : Request, request.order? = some ⟨sender, .forceTransfer denom n source target⟩) ↔
      0 ≤ n ∧ n ≤ maxAmount := by
  constructor
  · rintro ⟨request, horder⟩
    exact (Request.inRange_of_order? horder).amount n rfl
  · intro hn
    exact ⟨_, order?_post_orderBody hsender (reads_transferArguments hn source target)
      (command_transfer hn _ _ _ _)⟩

end Amount

end Server

end Coinage
