import MessagePusher.Controller.Webhook
import MessagePusher.JsonText.Numbers

/-!
# The variables of a webhook

The part of `TriggerWebhook` from the request body to the extracted variables, with `RunPreScript`
of `model/pre-script.go`. Paths are looked up by the package `gjson`, which comes in. So do the texts
of the errors of the JSON package, and the JavaScript interpreter as `interpret`: it answers what
`main` returned, nothing for `undefined`, and whether `__msg_send__` held afterwards, or the text of
an error.
-/

namespace MessagePusher.Model

open Common

/-- The interpreter, on a script and the value that `main` is called with. -/
abbrev Interpreter := String → Json → Except String (Option Json × Bool)

def runPreScript (interpret : Interpreter) (script : String) (input : Json) :
    Except String (Json × Bool) :=
  if Text.trimSpace script = "" then .error "前置脚本为空"
  else match interpret script input with
    | .error text => .error text
    | .ok (some output, send) => .ok (output, send)
    | .ok (none, true) => .error "前置脚本的 main(json) 没有返回值（请用 return 返回处理后的数据）"
    | .ok (none, false) => .ok (.null, false)

end MessagePusher.Model

namespace MessagePusher.Controller

open Common JsonText Model

/-- The package `gjson`: the keys and indices that a path is made of, `none` for a path that may
select several values, and the text of what `Get` finds. -/
structure Gjson where
  components : String → Option (List String)
  get : String → String → String

/-- The string in a `map[string]string`. -/
def ruleText : Json → Option String
  | .string text => some text
  | .null => some ""
  | _ => none

/-- `json.Unmarshal` of an extract rule into a `map[string]string`. -/
def decodeExtractRule (text : String) : Option (List (String × String)) :=
  match decode maxNestingDepth text with
  | some (.object members) =>
      if members.all fun member => (ruleText member.2).isSome then
        some ((memberMap members).map fun member => (member.1, (ruleText member.2).getD ""))
      else none
  | some .null => some []
  | _ => none

/-- The text that the paths are looked up in, nothing when the script asked to skip. -/
def requestText (interpret : Interpreter) (decodeError marshalError : String) (webhook : Webhook)
    (body : String) : Except Response (Option String) :=
  if webhook.preScriptEnabled then
    match unmarshal body with
    | none =>
        .error
          { httpStatus := 400
            message := "启用前置脚本时，请求体必须是合法的 JSON：" ++ decodeError }
    | some input =>
        match runPreScript interpret webhook.preScript input with
        | .error text => .error { message := "Webhook 前置脚本执行失败：" ++ text }
        | .ok (_, false) => .ok none
        | .ok (output, true) =>
            match marshal output with
            | none =>
                .error
                  { message := "Webhook 前置脚本的返回值无法序列化为 JSON：" ++ marshalError }
            | some processed => .ok (some processed)
  else .ok (some body)

/-- The variables of a rule in a text. -/
def extractFrom (gjson : Gjson) (text : String) (rule : List (String × String)) :
    List (String × String) :=
  rule.map fun entry => (entry.1, gjson.get text entry.2)

/-- The extracted variables, nothing when the script asked to skip, or a refusal. -/
def extractVariables (gjson : Gjson) (interpret : Interpreter)
    (decodeError marshalError ruleError : String) (webhook : Webhook) (body : String) :
    Except Response (Option (List (String × String))) :=
  match requestText interpret decodeError marshalError webhook body with
  | .error refusal => .error refusal
  | .ok none => .ok none
  | .ok (some text) =>
      match decodeExtractRule webhook.extractRule with
      | none => .error { httpStatus := 500, message := "Webhook 提取规则解析失败：" ++ ruleError }
      | some rule => .ok (some (extractFrom gjson text rule))

end MessagePusher.Controller
