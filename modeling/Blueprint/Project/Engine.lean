/-!
# Names known to the engine

The classes that a class may extend and the types that a property may have without the project
declaring them.
-/
namespace Blueprint.Engine

def classes : List String :=
  ["Node", "Node2D", "Node3D", "Control", "CanvasItem", "CharacterBody2D", "CharacterBody3D",
    "RigidBody2D", "RigidBody3D", "StaticBody2D", "StaticBody3D", "Area2D", "Area3D", "Sprite2D",
    "Sprite3D", "Label", "Button", "LineEdit", "TextEdit", "Panel", "VBoxContainer",
    "HBoxContainer", "GridContainer", "ScrollContainer", "TabContainer", "Resource", "RefCounted",
    "Object"]

def types : List String :=
  ["int", "float", "bool", "String", "StringName", "Vector2", "Vector2i", "Vector3", "Vector3i",
    "Vector4", "Vector4i", "Color", "Rect2", "Rect2i", "Transform2D", "Transform3D", "Plane",
    "Quaternion", "AABB", "Basis", "Projection", "Array", "Dictionary", "PackedStringArray",
    "PackedFloat32Array", "PackedFloat64Array", "PackedInt32Array", "PackedInt64Array",
    "PackedByteArray", "PackedVector2Array", "PackedVector3Array", "PackedColorArray", "Variant",
    "Callable", "Signal", "NodePath", "RID", "var", "void"]

def isClass (name : String) : Bool :=
  classes.contains name

def isType (name : String) : Bool :=
  types.contains name

end Blueprint.Engine
