import GateGraph.Attribute.Fault
import GateGraph.Binary.Text
import GateGraph.Node

/-!
# `GateGraph.Error` — what can go wrong, and how it is said

## Contents
- `Error` and the causes behind it: `InvalidOperation` for values that no operation takes, `InputFault` for
  the inputs of a cell.
- `Error.message`, the only place where errors have words.
-/

namespace GateGraph

/-- The two parameters that each gate of a cell may have. -/
inductive GateParam
  | alpha
  | beta
  deriving DecidableEq, Repr

/-- The name of a cell's attribute that holds the parameters of its gates. -/
def GateParam.attribute : GateParam → String
  | alpha => "activations_alpha"
  | beta => "activations_beta"

/-- Values that an operation does not take. -/
inductive InvalidOperation
  | clampNotFinite (min max : Binary32)
  | clampReversed (min max : Binary32)
  | clipOutOfRange (clip : Binary32)
  | tooManyParams (param : GateParam) (length gates : Nat)
  | paramNotFinite (param : GateParam) (gate : Nat) (value : Binary32)
  | attributesIllTyped (faults : List Attribute.Fault)
  deriving DecidableEq

/-- What may be wrong with the shapes of a cell's inputs. -/
inductive InputFault
  | dynamicRank (index : Nat)
  | wrongRank (index rank expected : Nat)
  | wrongBiasRank (index rank expected : Nat)
  | tooFew (count : Nat)
  | inputSizeMismatch (x w : Shape)
  deriving DecidableEq, Repr

/-- Why an operation has failed. -/
inductive Error
  | nodeNotFound (id : NodeId)
  | invalidOperation (cause : InvalidOperation)
  | shapeMismatch (op : Arith) (expected got : Shape)
  | duplicateNodeName (name graph : String)
  | nodeValidation (node : String) (fault : InputFault)
  | unknownActivation (name : String)
  /-- A gate was asked for that the cell does not have: a mistake of the caller. -/
  | gateOutOfRange (gate gates : Nat)
  deriving DecidableEq

/-- Bounds as they are shown. -/
def boundsText (min max : Binary32) : String := "[" ++ min.text ++ ", " ++ max.text ++ "]"

def InvalidOperation.message : InvalidOperation → String
  | clampNotFinite min max => "Clamp 的边界必须是有限值，但得到: " ++ boundsText min max
  | clampReversed min max => "Clamp 的下界不能大于上界，但得到: " ++ boundsText min max
  | clipOutOfRange clip => "RNNCellBase 的clip应为有限非负数，但得到: " ++ clip.text
  | tooManyParams param length gates =>
      "RNNCellBase 的" ++ param.attribute ++ "长度" ++ Decimal.text length ++ "超过了激活函数个数"
        ++ Decimal.text gates
  | paramNotFinite param gate value =>
      "RNNCellBase 的" ++ param.attribute ++ "第" ++ Decimal.text gate ++ "个值应为有限数，但得到: "
        ++ value.text
  | attributesIllTyped faults => "属性读取失败：" ++ String.intercalate "；" (faults.map (·.text))

def InputFault.message : InputFault → String
  | dynamicRank index =>
      "RNNCellBase 仅支持静态秩的输入张量，第" ++ Decimal.text index ++ "个输入的秩是动态的"
  | wrongRank index rank expected =>
      "RNNCellBase 第" ++ Decimal.text index ++ "个输入张量的秩不正确：当前为" ++ Decimal.text rank
        ++ "，期望为" ++ Decimal.text expected
  | wrongBiasRank index rank expected =>
      "RNNCellBase 第" ++ Decimal.text index ++ "个(B)输入张量的秩不正确：当前为" ++ Decimal.text rank
        ++ "，期望为" ++ Decimal.text expected
  | tooFew count =>
      "RNNCellBase 至少需要X、initial_hidden_state、W共3个输入，但只得到" ++ Decimal.text count ++ "个"
  | inputSizeMismatch x w =>
      "RNNCellBase mismatched input_size dimension：X为" ++ x.text ++ "，W为" ++ w.text

/-- The message of an error. -/
def Error.message : Error → String
  | nodeNotFound id => "未找到节点" ++ id.text
  | invalidOperation cause => cause.message
  | shapeMismatch op expected got =>
      op.title ++ " 节点的父节点形状无法广播：期望形状" ++ expected.text ++ "，实际形状" ++ got.text
  | duplicateNodeName name graph => "节点" ++ name ++ "在图" ++ graph ++ "中重复"
  | nodeValidation node fault => node ++ "校验失败：" ++ fault.message
  | unknownActivation name => "无法识别的激活函数：" ++ name
  | gateOutOfRange gate gates =>
      "激活函数下标" ++ Decimal.text gate ++ "越界，当前只配置了" ++ Decimal.text gates ++ "个"

end GateGraph
